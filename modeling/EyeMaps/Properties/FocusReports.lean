import EyeMaps.Properties.FocusAlignment
import EyeMaps.Properties.FocusAppearance

/-!
# What the focus entity reports

The owner of a focus entity reads `state`, `onPlane` and `currentPlaneAnchor` and is told of changes
through its delegate.  These are written at different places: `onPlane` before the square is
redrawn, `currentPlaneAnchor` after the entity has been moved, and neither is cleared together with
the state.  `Coherent` says how they belong together between two updates, and that the calls to a
delegate alternate and end with the one for the present state.  That no change is left out, nor one
announced that was none, is said with the observer `changes`.
-/

namespace EyeMaps

open Framework

namespace FocusEntity

variable {K Q : Type} [Field K]

/-- The call that announces a state. -/
def announcement (e : FocusEntity K Q) : DelegateCall :=
  if e.state.isInitializing then .toInitializingState else .toTrackingState

/-- The published properties agree with each other. -/
structure Settled (e : FocusEntity K Q) : Prop where
  onPlane_eq : e.onPlane = (!e.state.isInitializing && e.currentPlaneAnchor.isSome)
  alignment_of_initializing : e.state.isInitializing = true → e.currentAlignment = none
  alignment_of_onPlane : e.onPlane = true →
    e.currentAlignment = e.currentPlaneAnchor.map ARPlaneAnchor.alignment

/-- The calls to the delegate alternate and end with `call`. -/
structure Told (call : DelegateCall) (e : FocusEntity K Q) : Prop where
  silent : e.delegate = none → e.calls = []
  alternating : e.calls.IsChain (· ≠ ·)
  last_call : ∀ last ∈ e.calls.getLast?, last = call

theorem told_of_nil {e : FocusEntity K Q} {call : DelegateCall} (h : e.calls = []) :
    e.Told call := by
  refine ⟨fun _ => h, ?_, ?_⟩
  · rw [h]
    exact List.isChain_nil
  · simp [h]

theorem Settled.notify {e : FocusEntity K Q} (h : e.Settled) (call : DelegateCall) :
    (e.notify call).Settled := by
  obtain ⟨honPlane, hinitializing, halignment⟩ := h
  unfold FocusEntity.notify
  split <;> exact ⟨honPlane, hinitializing, halignment⟩

/-- A call other than the last one keeps the calls alternating and ends them. -/
theorem Told.notify {e : FocusEntity K Q} {call call' : DelegateCall} (h : e.Told call)
    (hne : call ≠ call') : (e.notify call').Told call' := by
  obtain ⟨hsilent, hchain, hlast⟩ := h
  unfold FocusEntity.notify
  split
  next delegate hdelegate =>
    refine ⟨fun hnone => ?_, hchain.append (List.isChain_singleton call') ?_, ?_⟩
    · rw [hdelegate] at hnone
      cases hnone
    · intro last hmem next hnext
      rw [List.head?_cons, Option.mem_some_iff] at hnext
      rw [hlast last hmem, ← hnext]
      exact hne
    · intro last hmem
      simpa using hmem.symm
  next hnone =>
    have hnil := hsilent hnone
    refine ⟨fun _ => hnil, hchain, ?_⟩
    rw [hnil]
    simp

section Update

variable [LinearOrder K] {simd : Simd K Q}

omit [LinearOrder K] in
/-- A billboard is settled, whatever the last plane was. -/
theorem settled_displayAsBillboard {e : FocusEntity K Q} (h : e.state.isInitializing = true) :
    e.displayAsBillboard.Settled := by
  rw [displayAsBillboard, stateChangedSetup_eq]
  refine ⟨?_, fun _ => rfl, fun honPlane => Bool.noConfusion honPlane⟩
  show false = (!e.state.isInitializing && _)
  rw [h]
  rfl

theorem settled_track {e : FocusEntity K Q} (frame : Frame K Q) (r : ARRaycastResult K)
    (h : e.state.isInitializing = false) : (e.track simd frame r).Settled := by
  have halignment : (e.track simd frame r).currentAlignment = (aligned r e.alignments).1 :=
    congrArg Prod.fst (alignments_track simd frame r h)
  have honPlane := onPlane_track simd frame r e
  obtain ⟨newPlane, g, visited, heq⟩ := track_eq simd frame r e
  have hanchor : (e.track simd frame r).currentPlaneAnchor = r.anchor := by
    rw [heq]
  have hstate : (e.track simd frame r).state = e.state := by
    rw [heq]
    exact state_stateChangedSetup newPlane _
  refine ⟨?_, fun hinitializing => ?_, fun hplane => ?_⟩
  · rw [honPlane, hstate, h, hanchor]
    rfl
  · rw [hstate, h] at hinitializing
    cases hinitializing
  · -- a result on a plane is followed at once
    rw [honPlane] at hplane
    obtain ⟨planeAnchor, hsome⟩ := Option.isSome_iff_exists.1 hplane
    rw [halignment, hanchor, aligned, if_pos (.inr hplane), alignmentOf, hsome]
    rfl

/-- What the owner and the delegate may rely on. -/
def Coherent (e : FocusEntity K Q) : Prop := e.Settled ∧ e.Told e.announcement

omit [LinearOrder K] in
theorem announcement_notify (call : DelegateCall) (e : FocusEntity K Q) :
    (e.notify call).announcement = e.announcement := by
  unfold notify
  split <;> rfl

theorem Coherent.giveUp {e : FocusEntity K Q} (h : e.Coherent) (frame : Frame K Q)
    (hstate : e.state.isInitializing = false) :
    ({ e.putInFrontOfCamera simd frame with
      state := .initializing }.displayAsBillboard.notify .toInitializingState).Coherent := by
  let billboard := { e.putInFrontOfCamera simd frame with
    state := .initializing }.displayAsBillboard
  have htold : e.Told .toTrackingState := by simpa [announcement, hstate] using h.2
  have hcalls : billboard.Told .toTrackingState := by
    show (FocusEntity.stateChangedSetup false _).Told _
    rw [stateChangedSetup_eq]
    exact ⟨htold.1, htold.2, htold.3⟩
  have hannounce : billboard.announcement = .toInitializingState := by
    have hbillboard : billboard.state = .initializing := state_stateChangedSetup false _
    rw [announcement, hbillboard]
    rfl
  rw [Coherent, announcement_notify, hannounce]
  exact ⟨(settled_displayAsBillboard rfl).notify _, hcalls.notify (by decide)⟩

theorem Coherent.track {e : FocusEntity K Q} (h : e.Coherent) (frame : Frame K Q)
    (r : ARRaycastResult K) (camera : Option ARCamera) :
    let tracked := { e with state := .tracking r camera }.track simd frame r
    (if e.state.isInitializing then tracked.notify .toTrackingState else tracked).Coherent := by
  intro tracked
  obtain ⟨newPlane, g, visited, htrack⟩ :=
    track_eq simd frame r { e with state := .tracking r camera }
  have hcalls : tracked.Told e.announcement := by
    show (FocusEntity.track simd frame r _).Told e.announcement
    rw [htrack, stateChangedSetup_eq]
    exact ⟨h.2.1, h.2.2, h.2.3⟩
  have hannounce : tracked.announcement = .toTrackingState := by
    have hstate : tracked.state = .tracking r camera := by
      show (FocusEntity.track simd frame r _).state = _
      rw [htrack]
      exact state_stateChangedSetup newPlane _
    rw [announcement, hstate]
    rfl
  have hsettled : tracked.Settled := settled_track frame r rfl
  split
  next hstate =>
    have hold : e.announcement = .toInitializingState := by simp [announcement, hstate]
    rw [Coherent, announcement_notify, hannounce]
    exact ⟨hsettled.notify _, hcalls.notify (by rw [hold]; decide)⟩
  next hstate =>
    have hold : e.announcement = .toTrackingState := by simp [announcement, hstate]
    rw [Coherent, hannounce, ← hold]
    exact ⟨hsettled, hcalls⟩

theorem Coherent.update {e : FocusEntity K Q} (h : e.Coherent) (frame : Frame K Q) :
    (e.updateFocusEntity simd frame).Coherent := by
  rcases updateFocusEntity_cases simd frame e with
    ⟨-, -, heq⟩ | ⟨-, hstate, heq⟩ | ⟨r, camera, -, hsame, heq⟩ | ⟨r, camera, -, -, heq⟩
  · rw [heq]
    exact ⟨⟨h.1.1, h.1.2, h.1.3⟩, h.2.1, h.2.2, h.2.3⟩
  · rw [heq]
    exact h.giveUp frame hstate
  · -- the same result again
    have hstate := State.isInitializing_of_beq hsame
    have htold : e.Told .toTrackingState := by simpa [announcement, hstate] using h.2
    rw [heq]
    refine ⟨⟨?_, fun hinitializing => Bool.noConfusion hinitializing, h.1.3⟩, htold.1, htold.2,
      htold.3⟩
    rw [h.1.onPlane_eq, hstate]
    rfl
  · rw [heq]
    exact h.track frame r camera

theorem Coherent.step {e e' : FocusEntity K Q} {event : Event K Q} (h : e.Coherent)
    (hsubscribed : e.Subscribed) (hstep : (machine simd).step e event = some e') :
    e'.Coherent := by
  rcases hsubscribed.step_cases hstep with
    ⟨frame, -, rfl⟩ | ⟨-, l, calls, ⟨rfl, hdelegate⟩ | rfl, rfl⟩
  · exact h.update frame
  · refine ⟨⟨h.1.1, h.1.2, h.1.3⟩, fun hnone => ?_, h.2.2, h.2.3⟩
    exact h.2.silent (hdelegate.symm.trans hnone)
  · exact ⟨⟨h.1.1, h.1.2, h.1.3⟩, told_of_nil rfl⟩

/-! ## Every change is announced -/

/-- The announcements of the changes of state since the delegate was set. -/
def changes (past : List DelegateCall) (e : FocusEntity K Q) (event : Event K Q)
    (e' : FocusEntity K Q) : List DelegateCall :=
  match event with
  | .destroy => []
  | .setDelegate _ => []
  | _ => if e'.announcement = e.announcement then past else past ++ [e'.announcement]

omit [LinearOrder K] in
theorem calls_notify {e : FocusEntity K Q} (h : e.delegate.isSome = true) (call : DelegateCall) :
    (e.notify call).calls = e.calls ++ [call] := by
  obtain ⟨delegate, hdelegate⟩ := Option.isSome_iff_exists.1 h
  simp [notify, hdelegate]

omit [LinearOrder K] in
theorem calls_stateChangedSetup (newPlane : Bool) (e : FocusEntity K Q) :
    (e.stateChangedSetup newPlane).calls = e.calls := by
  rw [stateChangedSetup_eq]
  rfl

/-- An update calls the delegate if it changes the kind of state, and then once. -/
theorem calls_updateFocusEntity {e : FocusEntity K Q} (h : e.delegate.isSome = true)
    (frame : Frame K Q) :
    (e.updateFocusEntity simd frame).calls =
      if (e.updateFocusEntity simd frame).announcement = e.announcement then e.calls
      else e.calls ++ [(e.updateFocusEntity simd frame).announcement] := by
  rcases updateFocusEntity_cases simd frame e with
    ⟨-, -, heq⟩ | ⟨-, hstate, heq⟩ | ⟨r, camera, -, hsame, heq⟩ | ⟨r, camera, -, -, heq⟩
  · rw [heq]
    exact (if_pos rfl).symm
  · have hold : e.announcement = .toTrackingState := by simp [announcement, hstate]
    have hnew : ({ e.putInFrontOfCamera simd frame with
        state := .initializing }.displayAsBillboard).announcement = .toInitializingState := by
      rw [announcement, displayAsBillboard, state_stateChangedSetup]
      rfl
    have hdelegate : ({ e.putInFrontOfCamera simd frame with
        state := .initializing }.displayAsBillboard).delegate.isSome = true := by
      rw [displayAsBillboard, stateChangedSetup_eq]
      exact h
    rw [heq, announcement_notify, hnew, hold, if_neg (by decide), calls_notify hdelegate,
      displayAsBillboard, calls_stateChangedSetup]
    rfl
  · have hstate := State.isInitializing_of_beq hsame
    have hold : e.announcement = .toTrackingState := by simp [announcement, hstate]
    have hnew : ({ e with state := .tracking r camera } : FocusEntity K Q).announcement =
        .toTrackingState := rfl
    rw [heq, hnew, hold, if_pos rfl]
  · obtain ⟨newPlane, g, visited, htrack⟩ :=
      track_eq simd frame r { e with state := .tracking r camera }
    have hnew : ({ e with state := .tracking r camera }.track simd frame r).announcement =
        .toTrackingState := by
      have hstate : ({ e with state := .tracking r camera }.track simd frame r).state =
          .tracking r camera := by
        rw [htrack]
        exact state_stateChangedSetup newPlane _
      rw [announcement, hstate]
      rfl
    have hcalls : ({ e with state := .tracking r camera }.track simd frame r).calls = e.calls := by
      rw [htrack]
      exact calls_stateChangedSetup newPlane _
    have hlifecycle := lifecycle_track simd frame r { e with state := .tracking r camera }
    have hdelegate :
        ({ e with state := .tracking r camera }.track simd frame r).delegate.isSome = true :=
      (congrArg (fun l => l.delegate.isSome) hlifecycle).trans h
    rw [heq]
    dsimp only
    split
    next hstate =>
      have hold : e.announcement = .toInitializingState := by simp [announcement, hstate]
      rw [announcement_notify, hnew, hold, if_neg (by decide), calls_notify hdelegate, hcalls]
    next hstate =>
      have hold : e.announcement = .toTrackingState := by simp [announcement, hstate]
      rw [hnew, hold, if_pos rfl, hcalls]

/-- A delegate has been told of exactly the changes since it was set. -/
theorem changes_step {past : List DelegateCall} {e e' : FocusEntity K Q} {event : Event K Q}
    (h : (e.delegate.isSome = true → e.calls = past) ∧ e.Subscribed)
    (hstep : (machine simd).step e event = some e') :
    (e'.delegate.isSome = true → e'.calls = changes past e event e') ∧ e'.Subscribed := by
  obtain ⟨htold, hsubscribed⟩ := h
  refine ⟨fun hdelegate' => ?_, hsubscribed.step hstep⟩
  have hupdated : ∀ frame, e' = e.updateFocusEntity simd frame →
      e'.calls = if e'.announcement = e.announcement then past
        else past ++ [e'.announcement] := by
    rintro frame rfl
    have hlifecycle := lifecycle_updateFocusEntity simd frame e
    have hdelegate : e.delegate.isSome = true :=
      (congrArg (fun l => l.delegate.isSome) hlifecycle).symm.trans hdelegate'
    rw [calls_updateFocusEntity hdelegate, htold hdelegate]
  have hidle : ∀ l : Lifecycle, l.delegate = e.delegate → e' = e.withLifecycle l →
      e'.calls = if e'.announcement = e.announcement then past
        else past ++ [e'.announcement] := by
    rintro l hl rfl
    have hsame : (e.withLifecycle l).announcement = e.announcement := rfl
    rw [if_pos hsame]
    exact htold ((congrArg Option.isSome hl).symm.trans hdelegate')
  cases event with
  | sceneUpdate scene frame =>
    cases hstep
    have heq : e.sceneUpdate simd scene frame = _ := hsubscribed.sceneUpdate_eq scene frame
    split at heq
    · exact hupdated frame heq
    · exact hidle e.lifecycle rfl heq
  | update frame =>
    cases hstep
    exact hupdated frame rfl
  | setAutoUpdate autoUpdate =>
    cases hstep
    exact hidle _ (e.delegate_setAutoUpdate autoUpdate) (e.setAutoUpdate_eq autoUpdate)
  | moveTo view =>
    cases hstep
    exact hidle _ (e.delegate_moveTo view) (e.moveTo_eq view)
  | destroy =>
    cases hstep
    rfl
  | setDelegate delegate =>
    cases hstep
    rfl

/-- In every run, between two events: the entity is on a plane exactly when it tracks a result and
has a `currentPlaneAnchor`, whose alignment it then has; without a result it has no alignment; and
the calls the delegate has received since it was set alternate, end with the one for the present
state and announce every change of state since then, in order. -/
theorem coherent_of_run {view : ℕ} {style : Style} {es : List (Event K Q)} {e : FocusEntity K Q}
    (hrun : (machine simd).run (create simd view style) es = some e) :
    e.onPlane = (!e.state.isInitializing && e.currentPlaneAnchor.isSome) ∧
      (e.state.isInitializing = true → e.currentAlignment = none) ∧
      (e.onPlane = true → e.currentAlignment = e.currentPlaneAnchor.map ARPlaneAnchor.alignment) ∧
      e.calls.IsChain (· ≠ ·) ∧ (∀ call ∈ e.calls.getLast?, call = e.announcement) ∧
      ∃ announced, ((machine simd).observe changes).run ([], create simd view style) es =
          some (announced, e) ∧ (e.delegate.isSome = true → e.calls = announced) := by
  have hcreate : (create simd view style).Coherent := by
    cases style <;>
      exact ⟨⟨rfl, fun _ => rfl, fun honPlane => Bool.noConfusion honPlane⟩, told_of_nil rfl⟩
  obtain ⟨⟨hsettled, htold⟩, -⟩ := Machine.invariant_of_step
    (P := fun e => e.Coherent ∧ e.Subscribed)
    (fun _ _ _ h hstep => ⟨h.1.step h.2 hstep, h.2.step hstep⟩)
    ⟨hcreate, subscribed_create view style⟩ hrun
  obtain ⟨announced, hobserved⟩ := Machine.exists_run_observe changes [] hrun
  have hnone : (create simd view style).calls = [] := by
    cases style <;> rfl
  have hannounced := (Machine.invariant_of_observed_step
    (P := fun past e => (e.delegate.isSome = true → e.calls = past) ∧ e.Subscribed)
    (fun _ _ _ _ h hstep => changes_step h hstep)
    ⟨fun _ => hnone, subscribed_create view style⟩ hobserved).1
  exact ⟨hsettled.1, hsettled.2, hsettled.3, htold.2, htold.3, announced, hobserved, hannounced⟩

/-- The wall has been found and lost: the delegate set before has heard both. -/
theorem coherent_of_run_wall :
    let e := ((create rotationMatrices 0 .classicPreset).setDelegate (some 0)).updated
      rotationMatrices [wallFrame, lostFrame]
    e.calls = [.toTrackingState, .toInitializingState] := by
  intro e
  have hrun : (machine rotationMatrices).run (create rotationMatrices 0 .classicPreset)
      [.setDelegate (some 0), .update wallFrame, .update lostFrame] = some e := rfl
  have hobserved : ((machine rotationMatrices).observe changes).run
      ([], create rotationMatrices 0 .classicPreset)
      [.setDelegate (some 0), .update wallFrame, .update lostFrame] =
        some ([.toTrackingState, .toInitializingState], e) := rfl
  obtain ⟨-, -, -, -, -, announced, hannounced, hcalls⟩ := coherent_of_run hrun
  rw [hobserved] at hannounced
  cases hannounced
  exact hcalls rfl

end Update

end FocusEntity

end EyeMaps
