import EyeMaps.Properties.FocusUpdates

/-!
# What the focus square shows

The square is redrawn by relative moves: `open` and `close` add and subtract offsets, and only the
flag `isOpen` says where the segments are.  `Drawn` is what the flag promises about the segments,
`InSync` that the flag (or the fill color) is that of the current state.  An update breaks `InSync`
when it writes `state` and `onPlane`, and `stateChangedSetup` restores it (`Drawn.redraw`); nothing
else touches the drawing.  So after every run the square is exactly the closed square on a plane and
exactly the open one elsewhere (`shows_of_run`), however often it has been opened and closed.

Two things depend on the past, which the observer `remember` records.  The scale of the drawing is
set once at 97 % and never again when the square closes, but to the full size whenever it opens, so
it says whether the entity has ever left a plane.  And `destroy` takes the drawing out of the
entity for good: `moveTo` puts the entity into a scene again, but nothing adds `positioningEntity`.
-/

namespace EyeMaps

open Framework

namespace FocusEntity

variable {K Q : Type} [Field K]

/-- The color of a colored square in the current state. -/
def fillColor (onColor offColor nonTrackingColor : MaterialColorParameter)
    (e : FocusEntity K Q) : MaterialColorParameter :=
  if e.state.isInitializing then nonTrackingColor else if e.onPlane then onColor else offColor

/-- The segments are where `isOpen` says; a colored square has its fill plane. -/
def Drawn (lost : Bool) (e : FocusEntity K Q) : Prop :=
  e.isAnimating = false ∧
    match e.style with
    | .classic color =>
      e.segments = (if e.isOpen then (closedSquare color).map Segment.opened
        else closedSquare color) ∧
      e.positioningScale = if lost then size else size * scaleForClosedSquare
    | .colored _ _ _ => e.fillPlane.isSome = true

/-- The drawing is that of the current state. -/
def InSync (e : FocusEntity K Q) : Prop :=
  match e.style with
  | .classic _ => e.isOpen = !e.onPlane
  | .colored onColor offColor nonTrackingColor =>
    e.fillPlane = some (e.fillColor onColor offColor nonTrackingColor)

/-- A redraw puts the drawing in sync.  The scale changes when a closed square opens. -/
theorem Drawn.redraw {lost lost' : Bool} {e : FocusEntity K Q} (h : e.Drawn lost)
    (hlost : ∀ color, e.style = .classic color → lost' = (lost || (!e.isOpen && !e.onPlane)))
    (newPlane : Bool) :
    (e.stateChangedSetup newPlane).Drawn lost' ∧ (e.stateChangedSetup newPlane).InSync := by
  obtain ⟨hstill, hdrawn⟩ := h
  have hsetup : e.stateChangedSetup newPlane = e.stateChanged newPlane := by
    simp [stateChangedSetup, hstill]
  rw [hsetup]
  cases hstyle : e.style with
  | colored onColor offColor nonTrackingColor =>
    rw [hstyle] at hdrawn
    obtain ⟨fill, hfill⟩ := Option.isSome_iff_exists.1 hdrawn
    have hchanged : e.stateChanged newPlane =
        { e with fillPlane := some (e.fillColor onColor offColor nonTrackingColor) } := by
      simp [stateChanged, coloredStateChanged, hstyle, hfill, fillColor]
    rw [hchanged]
    exact ⟨⟨hstill, by simp [hstyle]⟩, by simp [InSync, hstyle, fillColor]⟩
  | classic color =>
    rw [hstyle] at hdrawn
    obtain ⟨hsegments, hscale⟩ := hdrawn
    have hlost := hlost color hstyle
    cases hopen : e.isOpen <;> cases hplane : e.onPlane
    · -- the square opens
      have hchanged : e.stateChanged newPlane = e.offPlaneAniation := by
        simp [stateChanged, hstyle, hplane]
      rw [hchanged]
      simp_all [offPlaneAniation, Drawn, InSync]
    · have hchanged : e.stateChanged newPlane = e := by
        simp [stateChanged, hstyle, hplane, onPlaneAnimation, hopen]
      rw [hchanged]
      simp_all [Drawn, InSync]
    · have hchanged : e.stateChanged newPlane = e := by
        simp [stateChanged, hstyle, hplane, offPlaneAniation, hopen]
      rw [hchanged]
      simp_all [Drawn, InSync]
    · -- the square closes
      have hchanged : e.stateChanged newPlane = e.onPlaneAnimation newPlane := by
        simp [stateChanged, hstyle, hplane]
      rw [hchanged]
      have hclosed := map_closed_map_opened (K := K) color
      simp_all [onPlaneAnimation, Drawn, InSync]

@[simp] theorem onPlane_stateChangedSetup (newPlane : Bool) (e : FocusEntity K Q) :
    (e.stateChangedSetup newPlane).onPlane = e.onPlane := by
  rw [stateChangedSetup_eq]
  rfl

@[simp] theorem onPlane_notify (call : DelegateCall) (e : FocusEntity K Q) :
    (e.notify call).onPlane = e.onPlane := by
  unfold notify
  split <;> rfl

theorem Drawn.notify {lost : Bool} {e : FocusEntity K Q} (h : e.Drawn lost)
    (call : DelegateCall) : (e.notify call).Drawn lost := by
  unfold FocusEntity.notify
  split <;> exact h

theorem InSync.notify {e : FocusEntity K Q} (h : e.InSync) (call : DelegateCall) :
    (e.notify call).InSync := by
  unfold FocusEntity.notify
  split <;> exact h

section Update

variable [LinearOrder K] (simd : Simd K Q)

/-- Whether the entity is on a plane after an update. -/
theorem onPlane_track (frame : Frame K Q) (r : ARRaycastResult K) (e : FocusEntity K Q) :
    (e.track simd frame r).onPlane = r.anchor.isSome := by
  obtain ⟨newPlane, g, visited, heq⟩ := track_eq simd frame r e
  rw [heq]
  exact onPlane_stateChangedSetup newPlane { e with onPlane := r.anchor.isSome }

theorem Drawn.track {lost lost' : Bool} {e : FocusEntity K Q} (h : e.Drawn lost)
    (frame : Frame K Q) (r : ARRaycastResult K)
    (hlost : ∀ color, e.style = .classic color →
      lost' = (lost || (!e.isOpen && !r.anchor.isSome))) :
    (e.track simd frame r).Drawn lost' ∧ (e.track simd frame r).InSync := by
  obtain ⟨newPlane, g, visited, heq⟩ := track_eq simd frame r e
  have hdrawn : Drawn lost { e with onPlane := r.anchor.isSome } := h
  rw [heq]
  exact hdrawn.redraw hlost newPlane

/-- One update keeps the drawing right; the scale changes when the entity leaves a plane. -/
theorem drawn_updateFocusEntity {lost : Bool} {e : FocusEntity K Q} (h : e.Drawn lost)
    (hsync : e.InSync) (frame : Frame K Q) :
    (e.updateFocusEntity simd frame).Drawn
        (lost || (e.onPlane && !(e.updateFocusEntity simd frame).onPlane)) ∧
      (e.updateFocusEntity simd frame).InSync := by
  have hopen : ∀ color, e.style = .classic color → e.onPlane = !e.isOpen := by
    intro color hstyle
    rw [InSync, hstyle] at hsync
    simp [hsync]
  rcases updateFocusEntity_cases simd frame e with
    ⟨-, -, heq⟩ | ⟨-, -, heq⟩ | ⟨r, camera, -, hsame, heq⟩ | ⟨r, camera, -, -, heq⟩
  · have honPlane : (e.putInFrontOfCamera simd frame).onPlane = e.onPlane := rfl
    rw [heq, honPlane, Bool.and_not_self, Bool.or_false]
    exact ⟨h, hsync⟩
  · -- the entity becomes a billboard
    have hdrawn : Drawn lost { { e.putInFrontOfCamera simd frame with state := .initializing } with
        onPlane := false, currentAlignment := none } := h
    rw [heq, onPlane_notify, displayAsBillboard, onPlane_stateChangedSetup]
    have hlost : ∀ color, e.style = .classic color →
        (lost || (e.onPlane && !false)) = (lost || (!e.isOpen && !false)) := by
      intro color hstyle
      rw [hopen color hstyle]
    obtain ⟨hdrawn', hsync'⟩ := hdrawn.redraw hlost false
    exact ⟨hdrawn'.notify _, hsync'.notify _⟩
  · have hinitializing := State.isInitializing_of_beq hsame
    have htracking : (State.tracking r camera).isInitializing = false := rfl
    rw [heq]
    show Drawn (lost || (e.onPlane && !e.onPlane)) e ∧ _
    rw [Bool.and_not_self, Bool.or_false]
    refine ⟨h, ?_⟩
    cases hstyle : e.style with
    | classic color => simpa [InSync, hstyle] using hsync
    | colored onColor offColor nonTrackingColor =>
      simpa [InSync, hstyle, fillColor, htracking, hinitializing] using hsync
  · have hdrawn : Drawn lost { e with state := .tracking r camera } := h
    have hlost : ∀ color, e.style = .classic color →
        (lost || (e.onPlane && !r.anchor.isSome)) = (lost || (!e.isOpen && !r.anchor.isSome)) := by
      intro color hstyle
      rw [hopen color hstyle]
    obtain ⟨hdrawn', hsync'⟩ := hdrawn.track simd frame r hlost
    rw [heq]
    dsimp only
    split
    · rw [onPlane_notify, onPlane_track]
      exact ⟨hdrawn'.notify _, hsync'.notify _⟩
    · rw [onPlane_track]
      exact ⟨hdrawn', hsync'⟩

/-! ## Runs -/

/-- What an entity has been through. -/
structure Past where
  /-- it has been on a plane and then off it -/
  leftPlane : Bool
  destroyed : Bool
  deriving DecidableEq

def Event.isDestroy : Event K Q → Bool
  | .destroy => true
  | _ => false

/-- The past after a step. -/
def remember (past : Past) (e : FocusEntity K Q) (event : Event K Q) (e' : FocusEntity K Q) :
    Past where
  leftPlane := past.leftPlane || (e.onPlane && !e'.onPlane)
  destroyed := past.destroyed || event.isDestroy

/-- The drawing under `positioningEntity`. -/
inductive Picture (K : Type)
  | square (segments : List (Segment K)) (scale : K)
  | plane (color : MaterialColorParameter)

/-- What the entity draws. -/
def drawing (e : FocusEntity K Q) : Option (Picture K) :=
  match e.style with
  | .classic _ => some (.square e.segments e.positioningScale)
  | .colored _ _ _ => e.fillPlane.map .plane

/-- What is to be seen of the entity: its drawing, if the entity is in a scene and the drawing in
the entity. -/
def picture (e : FocusEntity K Q) : Option (Picture K) :=
  if e.scene.isSome && e.isPositioned then e.drawing else none

/-- What an entity of the given style and past shows. -/
def Shows (past : Past) (e : FocusEntity K Q) (style : Style) : Prop :=
  if past.destroyed then e.picture = none
  else
    match style with
    | .classic color => ∃ segments : List (Segment K),
      e.picture =
        some (.square segments (if past.leftPlane then size else size * scaleForClosedSquare)) ∧
      segments = (if e.onPlane then closedSquare color
        else (closedSquare color).map Segment.opened) ∧
      segments.map Segment.outerEnd = (closedSquare color).map Segment.outerEnd
    | .colored onColor offColor nonTrackingColor =>
      e.picture = some (.plane (e.fillColor onColor offColor nonTrackingColor))

/-- The drawing is in the entity and the entity in a scene until it is destroyed. -/
def Attached (destroyed : Bool) (e : FocusEntity K Q) : Prop :=
  e.isPositioned = (!destroyed) ∧ (destroyed = false → e.scene.isSome = true)

variable {simd}

omit [LinearOrder K] in
theorem Attached.of_lifecycle {destroyed : Bool} {e e' : FocusEntity K Q} (h : e.Attached destroyed)
    (heq : e'.lifecycle = e.lifecycle) : e'.Attached destroyed := by
  have hscene : e'.scene = e.scene := congrArg Lifecycle.scene heq
  have hpositioned : e'.isPositioned = e.isPositioned := congrArg Lifecycle.isPositioned heq
  rw [Attached, hscene, hpositioned]
  exact h

omit [LinearOrder K] in
@[simp] theorem isPositioned_setAutoUpdate (autoUpdate : Bool) (e : FocusEntity K Q) :
    (e.setAutoUpdate autoUpdate).isPositioned = e.isPositioned := by
  unfold setAutoUpdate
  split
  · rfl
  · split
    · rfl
    · split <;> rfl

/-- Moving an entity to a view never brings its drawing back. -/
theorem Attached.step {destroyed : Bool} {e e' : FocusEntity K Q} {event : Event K Q}
    (h : e.Attached destroyed) (hstep : (machine simd).step e event = some e') :
    e'.Attached (destroyed || event.isDestroy) := by
  have hkept : event.isDestroy = false → (destroyed || event.isDestroy) = destroyed := by
    intro hother
    rw [hother, Bool.or_false]
  cases event with
  | sceneUpdate scene frame =>
    cases hstep
    rw [hkept rfl]
    exact h.of_lifecycle (lifecycle_sceneUpdate scene frame e)
  | update frame =>
    cases hstep
    rw [hkept rfl]
    exact h.of_lifecycle (lifecycle_updateFocusEntity simd frame e)
  | setAutoUpdate autoUpdate =>
    cases hstep
    simpa [Attached, Event.isDestroy] using h
  | moveTo view =>
    cases hstep
    rw [hkept rfl]
    simp only [moveTo]
    split <;> exact ⟨by simpa using h.1, fun _ => by simp⟩
  | destroy =>
    cases hstep
    have hdestroyed : (destroyed || (Event.destroy : Event K Q).isDestroy) = true :=
      Bool.or_true destroyed
    rw [hdestroyed]
    exact ⟨rfl, fun hfalse => Bool.noConfusion hfalse⟩
  | setDelegate delegate =>
    cases hstep
    rw [hkept rfl]
    exact h

omit [LinearOrder K] in
theorem Attached.picture_eq {destroyed : Bool} {e : FocusEntity K Q} (h : e.Attached destroyed) :
    e.picture = if destroyed then none else e.drawing := by
  obtain ⟨hpositioned, hscene⟩ := h
  cases destroyed with
  | true => simp [picture, hpositioned]
  | false => simp [picture, hpositioned, hscene rfl]

/-- What holds of an entity of the given style between two events. -/
structure Presents (style : Style) (past : Past) (e : FocusEntity K Q) : Prop where
  drawn : e.Drawn past.leftPlane
  inSync : e.InSync
  style_eq : e.style = style
  attached : e.Attached past.destroyed
  subscribed : e.Subscribed

omit [LinearOrder K] in
theorem presents_create (view : ℕ) (style : Style) :
    (create simd view style).Presents style ⟨false, false⟩ := by
  have hsubscribed : (create simd view style).Subscribed := subscribed_create view style
  cases style with
  | classic color => exact ⟨⟨rfl, rfl, rfl⟩, rfl, rfl, ⟨rfl, fun _ => rfl⟩, hsubscribed⟩
  | colored onColor offColor nonTrackingColor =>
    exact ⟨⟨rfl, rfl⟩, rfl, rfl, ⟨rfl, fun _ => rfl⟩, hsubscribed⟩

theorem Presents.step {style : Style} {past : Past} {e e' : FocusEntity K Q} {event : Event K Q}
    (h : e.Presents style past) (hstep : (machine simd).step e event = some e') :
    e'.Presents style (remember past e event e') := by
  have hsubscribed' := h.subscribed.step hstep
  have hattached' := h.attached.step hstep
  rcases h.subscribed.step_cases hstep with ⟨frame, -, rfl⟩ | ⟨-, l, calls, -, rfl⟩
  · obtain ⟨hdrawn', hsync'⟩ := drawn_updateFocusEntity simd h.drawn h.inSync frame
    have hkept := congrArg Lifecycle.style (lifecycle_updateFocusEntity simd frame e)
    exact ⟨hdrawn', hsync', hkept.trans h.style_eq, hattached', hsubscribed'⟩
  · have hidle : (remember past e event { e.withLifecycle l with calls := calls }).leftPlane =
        past.leftPlane := by
      simp [remember, withLifecycle]
    refine ⟨?_, h.inSync, h.style_eq, hattached', hsubscribed'⟩
    rw [hidle]
    exact h.drawn

omit [LinearOrder K] in
theorem Presents.shows {style : Style} {past : Past} {e : FocusEntity K Q}
    (h : e.Presents style past) : e.Shows past style := by
  obtain ⟨⟨-, hdrawn⟩, hsync, hstyle, hattached, -⟩ := h
  unfold Shows
  rw [hattached.picture_eq, drawing]
  rw [InSync] at hsync
  cases past.destroyed with
  | true => rfl
  | false =>
    rw [hstyle] at hdrawn hsync ⊢
    cases style with
    | colored onColor offColor nonTrackingColor =>
      exact congrArg (Option.map Picture.plane) hsync
    | classic color =>
      obtain ⟨hsegments, hscale⟩ := hdrawn
      have hplace : e.segments = if e.onPlane then closedSquare color
          else (closedSquare color).map Segment.opened := by
        rw [hsegments, hsync]
        cases e.onPlane <;> rfl
      refine ⟨e.segments, by rw [hscale]; rfl, hplace, ?_⟩
      rw [hplace]
      split
      · rfl
      · exact map_outerEnd_map_opened color

/-- After every run a classic entity that has not been destroyed shows exactly the closed square on
a plane and exactly the open square off it, the corners of the eight segments being where they were
set up; the square has its first scale until the entity first leaves a plane, and the full size from
then on.  A colored entity shows the color of its state.  Once destroyed an entity shows nothing,
whatever view it is moved to. -/
theorem shows_of_run {view : ℕ} {style : Style} {es : List (Event K Q)} {past : Past}
    {e : FocusEntity K Q}
    (hrun : ((machine simd).observe remember).run (⟨false, false⟩, create simd view style) es =
      some (past, e)) : e.Shows past style :=
  (Machine.invariant_of_observed_step (P := fun past e => Presents style past e)
    (fun _ _ _ _ h hstep => h.step hstep) (presents_create view style) hrun).shows

/-- The square has found a wall and lost it: it is open, and larger than before.  Destroyed and
moved to another view, the entity shows nothing. -/
theorem shows_of_run_left :
    let e := ((create rotationMatrices 0 .classicPreset).updateFocusEntity rotationMatrices
      wallFrame).updateFocusEntity rotationMatrices lostFrame
    e.Shows ⟨true, false⟩ .classicPreset ∧
      (e.destroy.moveTo 1).Shows ⟨true, true⟩ .classicPreset := by
  intro e
  have hrun : ((machine rotationMatrices).observe remember).run
      (⟨false, false⟩, create rotationMatrices 0 .classicPreset)
      [.sceneUpdate 0 wallFrame, .sceneUpdate 0 lostFrame] = some (⟨true, false⟩, e) := rfl
  have hmoved : ((machine rotationMatrices).observe remember).run
      (⟨false, false⟩, create rotationMatrices 0 .classicPreset)
      [.sceneUpdate 0 wallFrame, .sceneUpdate 0 lostFrame, .destroy, .moveTo 1] =
        some (⟨true, true⟩, e.destroy.moveTo 1) := rfl
  exact ⟨shows_of_run hrun, shows_of_run hmoved⟩

end Update

end FocusEntity

end EyeMaps
