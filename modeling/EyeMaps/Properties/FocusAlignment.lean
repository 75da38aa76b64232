import EyeMaps.Framework.Window
import EyeMaps.Properties.FocusUpdates

/-!
# Where the focus entity is and how it is aligned

The entity averages: its position is the mean of the last ten places it was sent to, and its
alignment follows the last twenty votes of the raycast results.  `positions_updateFocusEntity` and
`alignment_updateFocusEntity` say what one update does to the two histories; with the window rules
they give the two results over runs.  `smoothing_of_run`: the position is the mean of the last ten
targets as `Float` computes it, so that it leaves a convex region that these lie in by no more than
the rounding.  `seven_votes_to_realign`: once
twenty votes have been cast and the majority is clear, results off the planes turn the entity from
one alignment to the other only after seven votes for the other.
-/

namespace EyeMaps

open Framework

namespace FocusEntity

variable {K Q : Type} [Field K] [LinearOrder K] (simd : Simd K Q)

/-! ## Votes -/

omit [LinearOrder K] in
theorem geometry_stateChangedSetup (newPlane : Bool) (e : FocusEntity K Q) :
    (e.stateChangedSetup newPlane).geometry = e.geometry := by
  rw [stateChangedSetup_eq]
  rfl

omit [LinearOrder K] in
theorem state_stateChangedSetup (newPlane : Bool) (e : FocusEntity K Q) :
    (e.stateChangedSetup newPlane).state = e.state := by
  rw [stateChangedSetup_eq]
  rfl

omit [LinearOrder K] in
theorem geometry_notify (call : DelegateCall) (e : FocusEntity K Q) :
    (e.notify call).geometry = e.geometry := by
  unfold notify
  split <;> rfl

/-- The alignment and the votes; moving the entity leaves them alone. -/
def alignments (e : FocusEntity K Q) : Option PlaneAlignment × List PlaneAlignment :=
  (e.currentAlignment, e.recentFocusEntityAlignments)

omit [LinearOrder K] in
theorem alignments_of_geometry {e e' : FocusEntity K Q} (h : e'.geometry = e.geometry) :
    e'.alignments = e.alignments :=
  Prod.ext (congrArg Geometry.currentAlignment h)
    (congrArg Geometry.recentFocusEntityAlignments h)

/-- What a new result does to the alignment and the votes. -/
def aligned (r : ARRaycastResult K) (p : Option PlaneAlignment × List PlaneAlignment) :
    Option PlaneAlignment × List PlaneAlignment :=
  let recent := vote (alignmentOf r) p.2
  (if isMajority (alignmentOf r) recent ∨ r.anchor.isSome then alignmentOf r else p.1, recent)

theorem alignments_changeAlignment (alignment : Option PlaneAlignment) (target : Q)
    (e : FocusEntity K Q) :
    (e.changeAlignment simd alignment target).alignments =
      (alignment, e.recentFocusEntityAlignments) := by
  unfold changeAlignment
  split
  · rfl
  next h =>
    have hsame : alignment = e.currentAlignment := by
      by_contra hne
      exact h (.inl hne)
    rw [hsame]
    rfl

theorem alignments_turn (target : Q) (e : FocusEntity K Q) :
    (e.turn simd target).alignments = e.alignments := by
  unfold turn
  split <;> rfl

theorem alignments_updateAlignment (r : ARRaycastResult K) (e : FocusEntity K Q) :
    (e.updateAlignment simd r).alignments = aligned r e.alignments := by
  let e' : FocusEntity K Q :=
    { e with
      recentFocusEntityAlignments := vote (alignmentOf r) e.recentFocusEntityAlignments }
  by_cases h : isMajority (alignmentOf r) (vote (alignmentOf r) e.recentFocusEntityAlignments) ∨
      r.anchor.isSome
  · calc (e.updateAlignment simd r).alignments
        = ((e'.changeAlignment simd (alignmentOf r) (targetAlignment simd r)).turn simd
            (targetAlignment simd r)).alignments := congrArg alignments (if_pos h)
      _ = (alignmentOf r, vote (alignmentOf r) e.recentFocusEntityAlignments) := by
          rw [alignments_turn, alignments_changeAlignment]
      _ = aligned r e.alignments := Prod.ext (if_pos h).symm rfl
  · calc (e.updateAlignment simd r).alignments
        = e'.alignments := congrArg alignments (if_neg h)
      _ = aligned r e.alignments := Prod.ext (if_neg h).symm rfl

theorem alignments_moveOffPlane (frame : Frame K Q) (r : ARRaycastResult K)
    (e : FocusEntity K Q) : (e.moveOffPlane simd frame r).alignments = e.alignments := by
  unfold moveOffPlane
  split <;> rfl

theorem alignments_moveOnPlane (frame : Frame K Q) (r : ARRaycastResult K)
    (e : FocusEntity K Q) : (e.moveOnPlane simd frame r).alignments = e.alignments := by
  unfold moveOnPlane
  split <;> rfl

theorem alignments_updateTransform (r : ARRaycastResult K) {e : FocusEntity K Q}
    (h : e.state.isInitializing = false) :
    (e.updateTransform simd r).alignments = aligned r e.alignments := by
  have hstate : (e.updatePosition simd).state.isInitializing = false := h
  simp only [updateTransform, hstate]
  exact alignments_updateAlignment simd r (e.updatePosition simd)

/-- Tracking a new result is one vote. -/
theorem alignments_track (frame : Frame K Q) (r : ARRaycastResult K) {e : FocusEntity K Q}
    (h : e.state.isInitializing = false) :
    (e.track simd frame r).alignments = aligned r e.alignments := by
  unfold track
  split
  next planeAnchor hanchor =>
    show (e.entityOnPlane simd frame r planeAnchor).alignments = _
    simp only [entityOnPlane]
    rw [alignments_updateTransform, alignments_moveOnPlane]
    · exact congrArg (aligned r) (alignments_of_geometry (geometry_stateChangedSetup _ _))
    · rw [moveOnPlane_eq]
      exact (congrArg State.isInitializing (state_stateChangedSetup _ _)).trans h
  next hanchor =>
    show (e.entityOffPlane simd frame r).alignments = _
    rw [entityOffPlane, displayOffPlane, alignments_updateTransform, alignments_moveOffPlane]
    · exact congrArg (aligned r) (alignments_of_geometry (geometry_stateChangedSetup _ _))
    · rw [moveOffPlane_eq]
      exact (congrArg State.isInitializing (state_stateChangedSetup _ _)).trans h

/-- What one update does to the alignment and the votes. -/
theorem alignments_updateFocusEntity (frame : Frame K Q) (e : FocusEntity K Q) :
    (e.updateFocusEntity simd frame).alignments =
      match e.observation frame with
      | .initializing =>
        (if e.state.isInitializing then e.currentAlignment else none,
          e.recentFocusEntityAlignments)
      | .tracking r camera =>
        if State.tracking r camera == e.state then e.alignments else aligned r e.alignments := by
  rcases updateFocusEntity_cases simd frame e with
    ⟨hobs, hstate, heq⟩ | ⟨hobs, hstate, heq⟩ | ⟨r, camera, hobs, hsame, heq⟩ |
      ⟨r, camera, hobs, hnew, heq⟩
  · rw [hobs, hstate, heq]
    rfl
  · rw [hobs, hstate, heq, alignments_of_geometry (geometry_notify _ _), displayAsBillboard,
      alignments_of_geometry (geometry_stateChangedSetup _ _)]
    rfl
  · rw [hobs, heq]
    simp only [hsame, if_true]
    rfl
  · have htrack := alignments_track simd frame r (e := { e with state := .tracking r camera }) rfl
    rw [hobs, heq]
    simp only [hnew, Bool.false_eq_true, if_false]
    split
    · rw [alignments_of_geometry (geometry_notify _ _), htrack]
      rfl
    · rw [htrack]
      rfl

/-! ## Changing the alignment -/

section Realign

/-- The result that a frame makes the entity track, if it is a new one. -/
def newResult (e : FocusEntity K Q) (frame : Frame K Q) : Option (ARRaycastResult K) :=
  match e.observation frame with
  | .initializing => none
  | .tracking r camera => if State.tracking r camera == e.state then none else some r

/-- The votes cast so far; a new result casts one if it knows its alignment. -/
def ballots (cast : List PlaneAlignment) (e : FocusEntity K Q) (event : Event K Q)
    (_ : FocusEntity K Q) : List PlaneAlignment :=
  match (e.heard event).bind e.newResult with
  | some r => cast ++ (alignmentOf r).toList
  | none => cast

/-- The event shows no new result on the plane of an anchor, which would be followed at once. -/
def OffPlanes (e : FocusEntity K Q) (event : Event K Q) : Prop :=
  ∀ r, (e.heard event).bind e.newResult = some r → r.anchor = none

/-- An update either casts a vote, and follows it if there is a majority, or leaves the votes as
they are and does not turn to another alignment. -/
theorem alignments_of_newResult (frame : Frame K Q) (e : FocusEntity K Q) :
    (∃ r, e.newResult frame = some r ∧
      (e.updateFocusEntity simd frame).alignments = aligned r e.alignments) ∨
    (e.newResult frame = none ∧
      (e.updateFocusEntity simd frame).recentFocusEntityAlignments =
        e.recentFocusEntityAlignments ∧
      ∀ b, (e.updateFocusEntity simd frame).currentAlignment = some b →
        e.currentAlignment = some b) := by
  have halignments := alignments_updateFocusEntity simd frame e
  unfold newResult
  cases hobs : e.observation frame with
  | initializing =>
    rw [hobs] at halignments
    refine .inr ⟨rfl, congrArg Prod.snd halignments, fun b hb => ?_⟩
    have hcurrent := (congrArg Prod.fst halignments).symm.trans hb
    dsimp only at hcurrent
    split at hcurrent
    · exact hcurrent
    · cases hcurrent
  | tracking r camera =>
    rw [hobs] at halignments
    dsimp only at halignments ⊢
    split at halignments
    next hsame =>
      rw [if_pos hsame]
      exact .inr ⟨rfl, congrArg Prod.snd halignments,
        fun b hb => (congrArg Prod.fst halignments).symm.trans hb⟩
    next hnew =>
      rw [if_neg hnew]
      exact .inl ⟨r, rfl, halignments⟩

/-- The number of votes out of twenty that a result needs to be followed. -/
def quorum : PlaneAlignment → ℕ
  | .horizontal => 16
  | .vertical => 11

theorem isMajority_iff {a : PlaneAlignment} {recent : List PlaneAlignment}
    (h : recent.length = 20) : isMajority (some a) recent ↔ quorum a ≤ recent.count a := by
  cases a <;> simp [isMajority, quorum, h] <;> omega

theorem quorum_add_quorum {a b : PlaneAlignment} (h : a ≠ b) : quorum a + quorum b = 27 := by
  cases a <;> cases b <;> first | rfl | exact absurd rfl h

/-- The votes are those of `recent` followed by those cast, and `b` is the alignment only after
seven votes for it. -/
def Holds (recent : List PlaneAlignment) (b : PlaneAlignment) (cast : List PlaneAlignment)
    (e : FocusEntity K Q) : Prop :=
  e.recentFocusEntityAlignments = (recent ++ cast).rtake 20 ∧
    (e.currentAlignment = some b → 7 ≤ cast.count b)

variable {simd} {a b : PlaneAlignment} {recent : List PlaneAlignment}

omit [LinearOrder K] in
theorem Holds.update (hne : a ≠ b) (hlength : recent.length = 20)
    (hclear : isMajority (some a) recent) {cast : List PlaneAlignment} {e : FocusEntity K Q}
    (h : Holds recent b cast e) {r : ARRaycastResult K} (hoff : r.anchor = none)
    {e' : FocusEntity K Q} (halignments : e'.alignments = aligned r e.alignments) :
    Holds recent b (cast ++ (alignmentOf r).toList) e' := by
  obtain ⟨hrecent, hseven⟩ := h
  have hrecent' : e'.recentFocusEntityAlignments =
      (recent ++ (cast ++ (alignmentOf r).toList)).rtake 20 := by
    calc e'.recentFocusEntityAlignments
        = (e.recentFocusEntityAlignments ++ (alignmentOf r).toList).rtake 20 :=
          congrArg Prod.snd halignments
      _ = (recent ++ (cast ++ (alignmentOf r).toList)).rtake 20 := by
          rw [hrecent, rtake_rtake_append, List.append_assoc]
  refine ⟨hrecent', fun hb => ?_⟩
  have hcurrent : e'.currentAlignment =
      if isMajority (alignmentOf r) (vote (alignmentOf r) e.recentFocusEntityAlignments) ∨
        r.anchor.isSome then alignmentOf r else e.currentAlignment :=
    congrArg Prod.fst halignments
  have hvote : vote (alignmentOf r) e.recentFocusEntityAlignments =
      e'.recentFocusEntityAlignments := (congrArg Prod.snd halignments).symm
  rw [hcurrent, hoff, hvote] at hb
  split at hb
  next hmajority =>
    -- `b` has won the window that `a` held
    have hmajority : isMajority (some b) e'.recentFocusEntityAlignments := by
      simpa [hb] using hmajority
    have hlength' : e'.recentFocusEntityAlignments.length = 20 := by
      rw [hrecent', length_rtake, List.length_append, hlength]
      omega
    have hwon := (isMajority_iff hlength').1 hmajority
    have hheld := (isMajority_iff hlength).1 hclear
    have hquorum := quorum_add_quorum hne
    rw [hrecent'] at hwon
    have hcount := le_count_of_overturned hne hlength.le hheld hwon
    omega
  next =>
    have hcast := hseven hb
    rw [List.count_append]
    omega

/-- Once twenty votes have been cast and the majority is for `a`, an entity that is not aligned to
`b` gets there only through seven votes for `b`, as long as it sees nothing on the plane of an
anchor. -/
theorem seven_votes_to_realign {view : ℕ} {style : Style} {es es' : List (Event K Q)}
    {e e' : FocusEntity K Q} {cast : List PlaneAlignment}
    (hrun : (machine simd).run (create simd view style) es = some e)
    (hlength : e.recentFocusEntityAlignments.length = 20)
    (hclear : isMajority (some a) e.recentFocusEntityAlignments) (hne : a ≠ b)
    (hother : e.currentAlignment ≠ some b) (hoff : (machine simd).Meets OffPlanes e es')
    (hrun' : ((machine simd).observe ballots).run ([], e) es' = some (cast, e'))
    (hb : e'.currentAlignment = some b) : 7 ≤ cast.count b := by
  have hsubscribed : e.Subscribed :=
    Machine.invariant_of_step (fun _ _ _ h hstep => h.step hstep)
      (subscribed_create view style) hrun
  have hstart : Holds e.recentFocusEntityAlignments b [] e :=
    ⟨by rw [List.append_nil, rtake_eq_self hlength.le], fun h => absurd h hother⟩
  refine (Machine.invariant_of_observed
    (P := fun cast s => Holds e.recentFocusEntityAlignments b cast s ∧ s.Subscribed)
    (C := fun _ s event => OffPlanes s event) ?_ ⟨hstart, hsubscribed⟩
    (Machine.along_observe_iff.2 hoff) hrun').1.2 hb
  rintro cast s event s' ⟨hholds, hsubscribed⟩ hoff hstep
  refine ⟨?_, hsubscribed.step hstep⟩
  rcases hsubscribed.step_cases hstep with ⟨frame, hheard, rfl⟩ | ⟨hheard, l, calls, -, rfl⟩
  · rcases alignments_of_newResult simd frame s with
      ⟨r, hnew, halignments⟩ | ⟨hnone, hrecent, hcurrent⟩
    · have hballot : (s.heard event).bind s.newResult = some r := by rw [hheard]; exact hnew
      rw [ballots, hballot]
      exact hholds.update hne hlength hclear (hoff r hballot) halignments
    · have hballot : (s.heard event).bind s.newResult = none := by rw [hheard]; exact hnone
      rw [ballots, hballot]
      exact ⟨hrecent.trans hholds.1, fun hb => hholds.2 (hcurrent b hb)⟩
  · rw [ballots, hheard]
    exact hholds

instance (e : FocusEntity K Q) (event : Event K Q) : Decidable (OffPlanes e event) :=
  match h : (e.heard event).bind e.newResult with
  | none => isTrue fun r hr => by rw [h] at hr; cases hr
  | some r => decidable_of_iff (r.anchor = none)
      ⟨fun hr r' hr' => by rw [h] at hr'; cases hr'; exact hr, fun hoff => hoff r h⟩

/-- The entity after the frames have updated it. -/
def updated (simd : Simd K Q) (frames : List (Frame K Q)) (e : FocusEntity K Q) :
    FocusEntity K Q :=
  frames.foldl (fun e frame => e.updateFocusEntity simd frame) e

theorem run_map_update (frames : List (Frame K Q)) (e : FocusEntity K Q) :
    (machine simd).run e (frames.map .update) = some (e.updated simd frames) := by
  induction frames generalizing e with
  | nil => rfl
  | cons frame frames ih => exact ih (e.updateFocusEntity simd frame)

/-- Twenty horizontal results, then eleven vertical ones. -/
theorem seven_votes_to_realign_vertical :
    let e := (create rotationMatrices 0 .classicPreset).updated rotationMatrices
      ((List.range 20).map (estimateFrame .horizontal))
    let frames := (List.range 11).map fun i => estimateFrame .vertical (20 + i)
    ∃ cast e', ((machine rotationMatrices).observe ballots).run ([], e) (frames.map .update) =
      some (cast, e') ∧ 7 ≤ cast.count .vertical := by
  intro e frames
  have hend : (((machine rotationMatrices).observe ballots).run ([], e)
      (frames.map .update)).map (fun p => p.2.currentAlignment) = some (some .vertical) := by
    decide +kernel
  obtain ⟨⟨cast, e'⟩, hrun', hb⟩ := Option.map_eq_some_iff.1 hend
  exact ⟨cast, e', hrun', seven_votes_to_realign (a := .horizontal)
    (run_map_update ((List.range 20).map (estimateFrame .horizontal)) _)
    (by decide +kernel) (by decide +kernel) (by decide) (by decide +kernel) (by decide +kernel)
    hrun' hb⟩

end Realign

/-! ## Smoothing the position -/

section Smoothing

/-- The recent positions and the position; aligning the entity leaves them alone. -/
def places (e : FocusEntity K Q) : List (SIMD3 K) × SIMD3 K :=
  (e.recentFocusEntityPositions, e.position)

omit [LinearOrder K] in
theorem places_of_geometry {e e' : FocusEntity K Q} (h : e'.geometry = e.geometry) :
    e'.places = e.places :=
  Prod.ext (congrArg Geometry.recentFocusEntityPositions h) (congrArg Geometry.position h)

/-- The last ten of the positions and their average. -/
def smoothed (positions : List (SIMD3 K)) : List (SIMD3 K) × SIMD3 K :=
  (positions.rtake 10, average simd (positions.rtake 10))

omit [LinearOrder K] in
/-- The average is the rounded mean in each coordinate. -/
theorem average_apply (positions : List (SIMD3 K)) (i : Fin 3) :
    average simd positions i = roundedMean simd.float (positions.map (· i)) := by
  have hsum : ∀ sum : SIMD3 K, positions.foldl simd.add sum i =
      (positions.map (· i)).foldl (fun sum x => simd.float (sum + x)) (sum i) := by
    induction positions with
    | nil => exact fun _ => rfl
    | cons p positions ih => exact fun sum => ih (simd.add sum p)
  rw [average, Simd.div, hsum, roundedMean, roundedSum, List.length_map]
  rfl

/-- The place a metre in front of the camera. -/
def front (frame : Frame K Q) : SIMD3 K := frame.cameraAnchor • (![0, 0, -1] : SIMD3 K)

/-- Where a new result sends the entity: in front of the camera while it has no alignment. -/
def placeOf (frame : Frame K Q) (r : ARRaycastResult K) (e : FocusEntity K Q) : SIMD3 K :=
  if e.currentAlignment.isSome then r.worldTransform.translation else front frame

theorem places_putInFrontOfCamera (frame : Frame K Q) (e : FocusEntity K Q) :
    (e.putInFrontOfCamera simd frame).places =
      smoothed simd (e.recentFocusEntityPositions ++ [front frame]) := rfl

theorem places_updateAlignment (r : ARRaycastResult K) (e : FocusEntity K Q) :
    (e.updateAlignment simd r).places = e.places := by
  have hturn : ∀ target (e : FocusEntity K Q), (e.turn simd target).places = e.places := by
    intro target e
    unfold turn
    split <;> rfl
  have hchange : ∀ alignment target (e : FocusEntity K Q),
      (e.changeAlignment simd alignment target).places = e.places := by
    intro alignment target e
    unfold changeAlignment
    split <;> rfl
  simp only [updateAlignment]
  split
  · rw [hturn, hchange]
    rfl
  · rfl

theorem places_updateTransform (r : ARRaycastResult K) (e : FocusEntity K Q) :
    (e.updateTransform simd r).places = smoothed simd e.recentFocusEntityPositions := by
  simp only [updateTransform]
  split
  · rfl
  · rw [places_updateAlignment]
    rfl

omit [LinearOrder K] in
/-- Averaging twice is averaging once. -/
theorem smoothed_rtake (positions : List (SIMD3 K)) :
    smoothed simd (positions.rtake 10) = smoothed simd positions := by
  have hrtake : (positions.rtake 10).rtake 10 = positions.rtake 10 := by
    simpa using rtake_rtake_append (n := 10) positions []
  rw [smoothed, hrtake, smoothed]

/-- A move that adds one place, averaged already or not, is averaged once in the end. -/
theorem places_moved (r : ARRaycastResult K) {positions : List (SIMD3 K)} {e : FocusEntity K Q}
    (h : e.recentFocusEntityPositions = positions ∨
      e.recentFocusEntityPositions = positions.rtake 10) :
    (e.updateTransform simd r).places = smoothed simd positions := by
  rw [places_updateTransform]
  rcases h with h | h
  · rw [h]
  · rw [h, smoothed_rtake]

theorem recent_moveOffPlane (frame : Frame K Q) (r : ARRaycastResult K) (e : FocusEntity K Q) :
    (e.moveOffPlane simd frame r).recentFocusEntityPositions =
        e.recentFocusEntityPositions ++ [placeOf frame r e] ∨
      (e.moveOffPlane simd frame r).recentFocusEntityPositions =
        (e.recentFocusEntityPositions ++ [placeOf frame r e]).rtake 10 := by
  unfold moveOffPlane placeOf
  split
  · exact .inl rfl
  · exact .inr rfl

theorem recent_moveOnPlane (frame : Frame K Q) (r : ARRaycastResult K) (e : FocusEntity K Q) :
    (e.moveOnPlane simd frame r).recentFocusEntityPositions =
        e.recentFocusEntityPositions ++ [placeOf frame r e] ∨
      (e.moveOnPlane simd frame r).recentFocusEntityPositions =
        (e.recentFocusEntityPositions ++ [placeOf frame r e]).rtake 10 := by
  unfold moveOnPlane placeOf
  split
  · exact .inl rfl
  · exact .inr rfl

/-- Tracking a new result adds one place, whichever way the entity is moved there. -/
theorem places_track (frame : Frame K Q) (r : ARRaycastResult K) (e : FocusEntity K Q) :
    (e.track simd frame r).places =
      smoothed simd (e.recentFocusEntityPositions ++ [placeOf frame r e]) := by
  have hsetup : ∀ newPlane (e : FocusEntity K Q),
      (e.stateChangedSetup newPlane).recentFocusEntityPositions ++
          [placeOf frame r (e.stateChangedSetup newPlane)] =
        e.recentFocusEntityPositions ++ [placeOf frame r e] := by
    intro newPlane e
    rw [stateChangedSetup_eq]
    rfl
  unfold track
  split
  · exact (places_moved simd r (recent_moveOnPlane simd frame r _)).trans
      (congrArg (smoothed simd) (hsetup _ { e with onPlane := true }))
  · exact (places_moved simd r (recent_moveOffPlane simd frame r _)).trans
      (congrArg (smoothed simd) (hsetup _ { e with onPlane := false }))

/-- Where an update sends the entity: a result it tracks already does not move it. -/
def target (e : FocusEntity K Q) (frame : Frame K Q) : Option (SIMD3 K) :=
  match e.observation frame with
  | .initializing => some (front frame)
  | .tracking r camera =>
    if State.tracking r camera == e.state then none else some (placeOf frame r e)

/-- What one update does to the position. -/
theorem places_updateFocusEntity (frame : Frame K Q) (e : FocusEntity K Q) :
    (e.updateFocusEntity simd frame).places =
      match e.target frame with
      | none => e.places
      | some place => smoothed simd (e.recentFocusEntityPositions ++ [place]) := by
  unfold target
  rcases updateFocusEntity_cases simd frame e with
    ⟨hobs, -, heq⟩ | ⟨hobs, -, heq⟩ | ⟨r, camera, hobs, hsame, heq⟩ |
      ⟨r, camera, hobs, hnew, heq⟩
  · rw [hobs, heq]
    exact places_putInFrontOfCamera simd frame e
  · rw [hobs, heq, places_of_geometry (geometry_notify _ _), displayAsBillboard,
      places_of_geometry (geometry_stateChangedSetup _ _)]
    exact places_putInFrontOfCamera simd frame e
  · rw [hobs, heq]
    simp only [hsame, if_true]
    rfl
  · have htrack := places_track simd frame r { e with state := .tracking r camera }
    rw [hobs, heq]
    simp only [hnew, Bool.false_eq_true, if_false]
    split
    · rw [places_of_geometry (geometry_notify _ _), htrack]
      rfl
    · rw [htrack]
      rfl

/-- The places the entity has been sent to. -/
def targets (sent : List (SIMD3 K)) (e : FocusEntity K Q) (event : Event K Q)
    (_ : FocusEntity K Q) : List (SIMD3 K) :=
  sent ++ ((e.heard event).bind e.target).toList

/-- The recent positions and the position of an entity that has been sent to the places `sent`; a
new entity is at the origin. -/
def placesAfter (sent : List (SIMD3 K)) : List (SIMD3 K) × SIMD3 K :=
  if sent = [] then ([], 0) else smoothed simd sent

omit [LinearOrder K] in
theorem placesAfter_fst (sent : List (SIMD3 K)) : (placesAfter simd sent).1 = sent.rtake 10 := by
  unfold placesAfter
  split
  next hnil => rw [hnil, List.rtake_nil]
  next => rfl

variable {simd}

theorem placesAfter_step {sent : List (SIMD3 K)} {e e' : FocusEntity K Q} {event : Event K Q}
    (h : e.places = placesAfter simd sent ∧ e.Subscribed)
    (hstep : (machine simd).step e event = some e') :
    e'.places = placesAfter simd (targets sent e event e') ∧ e'.Subscribed := by
  obtain ⟨hplaces, hsubscribed⟩ := h
  refine ⟨?_, hsubscribed.step hstep⟩
  rcases hsubscribed.step_cases hstep with ⟨frame, hheard, rfl⟩ | ⟨hheard, l, calls, -, rfl⟩
  · have hupdate := places_updateFocusEntity simd frame e
    have hrecent : e.recentFocusEntityPositions = sent.rtake 10 :=
      (congrArg Prod.fst hplaces).trans (placesAfter_fst simd sent)
    rw [targets, hheard, Option.bind_some]
    cases htarget : e.target frame with
    | none =>
      rw [htarget] at hupdate
      simpa using hupdate.trans hplaces
    | some place =>
      rw [htarget, hrecent] at hupdate
      calc (e.updateFocusEntity simd frame).places
          = smoothed simd (sent.rtake 10 ++ [place]) := hupdate
        _ = smoothed simd (sent ++ [place]) := by
            rw [← smoothed_rtake, rtake_rtake_append, smoothed_rtake]
        _ = placesAfter simd (sent ++ [place]) := (if_neg (by simp)).symm
  · rw [targets, hheard, Option.bind_none, Option.toList_none, List.append_nil]
    exact hplaces

/-- The average of at most ten places is within two roundings of their mean. -/
theorem abs_average_sub_mean_le [IsStrictOrderedRing K] {ε R : K} {positions : List (SIMD3 K)}
    (hne : positions ≠ []) (hlength : positions.length ≤ 10) (hε : 0 ≤ ε)
    (hfloat : RoundsWithin simd.float ε R)
    (hR : ∀ p ∈ positions, ∀ i, 10 * (|p i| + ε) ≤ R) (i : Fin 3) :
    |average simd positions i - mean K positions i| ≤ 2 * ε := by
  have hM : ∀ x ∈ positions.map (· i), |x| ≤ R / 10 - ε := by
    intro x hx
    obtain ⟨p, hp, rfl⟩ := List.mem_map.1 hx
    linarith [hR p hp i]
  have hlength' : ((positions.map (· i)).length : K) ≤ 10 := by
    rw [List.length_map]
    exact_mod_cast hlength
  have hR₀ : 0 ≤ R := by
    obtain ⟨p, hp⟩ := List.exists_mem_of_ne_nil positions hne
    linarith [hR p hp i, abs_nonneg (p i)]
  rw [average_apply, mean_apply]
  refine abs_roundedMean_sub_mean_le hfloat hε (by simpa using hne) hM ?_
  calc ((positions.map (· i)).length : K) * (R / 10 - ε + ε)
      ≤ 10 * (R / 10 - ε + ε) := mul_le_mul_of_nonneg_right hlength' (by linarith)
    _ = R := by ring

/-- After every run the recent positions are the last ten places the entity was sent to, and its
position is what `Float` makes of their mean: where no number up to `R` is rounded by more than `ε`,
and the sum of ten places stays below `R`, it is within two roundings of the mean in each
coordinate, hence of every convex region that contains the places. -/
theorem smoothing_of_run [IsStrictOrderedRing K] {view : ℕ} {style : Style}
    {es : List (Event K Q)} {sent : List (SIMD3 K)} {e : FocusEntity K Q}
    (hrun : ((machine simd).observe targets).run ([], create simd view style) es =
      some (sent, e)) :
    e.recentFocusEntityPositions = sent.rtake 10 ∧ (sent = [] → e.position = 0) ∧
      (sent ≠ [] →
        (∀ i, e.position i = roundedMean simd.float ((sent.rtake 10).map (· i))) ∧
        ∀ ε R : K, 0 ≤ ε → RoundsWithin simd.float ε R →
          (∀ p ∈ sent.rtake 10, ∀ i, 10 * (|p i| + ε) ≤ R) →
          (∀ i, |e.position i - mean K (sent.rtake 10) i| ≤ 2 * ε) ∧
          ∀ s : Set (SIMD3 K), Convex K s → (∀ p ∈ sent.rtake 10, p ∈ s) →
            ∃ q ∈ s, ∀ i, |e.position i - q i| ≤ 2 * ε) := by
  have hcreate : (create simd view style).places = placesAfter simd [] := by
    cases style <;> rfl
  obtain ⟨hplaces, -⟩ := Machine.invariant_of_observed_step
    (P := fun sent e => e.places = placesAfter simd sent ∧ e.Subscribed)
    (fun _ _ _ _ h hstep => placesAfter_step h hstep)
    ⟨hcreate, subscribed_create view style⟩ hrun
  refine ⟨(congrArg Prod.fst hplaces).trans (placesAfter_fst simd sent), fun hnil => ?_,
    fun hne => ?_⟩
  · exact (congrArg Prod.snd hplaces).trans (congrArg Prod.snd (if_pos hnil))
  · have hposition : e.position = average simd (sent.rtake 10) :=
      (congrArg Prod.snd hplaces).trans (congrArg Prod.snd (if_neg hne))
    have hlength : (sent.rtake 10).length = min 10 sent.length := length_rtake sent
    have hsome : 0 < sent.length := List.length_pos_iff.2 hne
    have hne' : sent.rtake 10 ≠ [] := List.length_pos_iff.1 (by omega)
    rw [hposition]
    refine ⟨average_apply simd _, fun ε R hε hfloat hR => ?_⟩
    have hnear := abs_average_sub_mean_le hne' (by omega) hε hfloat hR
    exact ⟨hnear, fun s hs hmem => ⟨_, mean_mem hs hne' hmem, hnear⟩⟩

/-- Without a camera the entity stays a metre in front of the origin. -/
theorem smoothing_of_run_lost :
    let e := (create rotationMatrices 0 .classicPreset).updateFocusEntity rotationMatrices
      lostFrame
    ∀ i, |e.position i - mean ℚ [front lostFrame] i| ≤ 2 * 0 := by
  intro e
  have hrun : ((machine rotationMatrices).observe targets).run
      ([], create rotationMatrices 0 .classicPreset) [.update lostFrame] =
        some ([front lostFrame], e) := rfl
  have hexact : RoundsWithin rotationMatrices.float 0 10 := by
    intro x _
    simp [rotationMatrices]
  exact (((smoothing_of_run hrun).2.2 (by simp)).2 0 10 le_rfl hexact (by decide +kernel)).1

end Smoothing

end FocusEntity

end EyeMaps
