import EyeMaps.Framework.Latch
import EyeMaps.Model.Controls

/-!
# Presses and calls

Each of the two buttons is a latch: a press raises the flag, a pass of `updateUIView` serves it.
Load lowers its flag in the pass, Save in a block that comes later, and in between the flag is
that of a press already served.  So a second pass before the block saves once more, and a block
that comes after the next press, but before a pass has seen it, takes that press back.

`Presses` follows what became of each press.  The flag, the blocks and the calls of one button go
through the steps of `latch true` (Save) or `latch false` (Load); the two projections transport
what is known of latches to runs of the app.
-/

namespace EyeMaps

open Framework

/-- What became of the presses of the two buttons. -/
structure Presses where
  saves : Requests := {}
  loads : Requests := {}
  deriving DecidableEq

namespace Controls

variable {K : Type} [Field K] [LinearOrder K]

/-- The presses after one more event: the calls a pass makes are on account of the latest press
of their button. -/
def followPresses (presses : Presses) (s : Controls K) (e : ControlsEvent K) (s' : Controls K) :
    Presses :=
  match e with
  | .pressSave => { presses with saves := presses.saves.request }
  | .pressLoad => { presses with loads := presses.loads.request }
  | .updateUIView _ =>
    { saves := presses.saves.poll (s'.saveCalls - s.saveCalls)
      loads := presses.loads.poll (s'.loadCalls - s.loadCalls) }
  | _ => presses

variable (K) in
/-- The buttons over the app, with the presses followed. -/
abbrev pressesObserved : Machine (Presses × Controls K) (ControlsEvent K) :=
  (controls K).observe followPresses

/-- A further press of a button occurs only after the previous one has been served. -/
def PressedAfterServed (p : Presses × Controls K) : ControlsEvent K → Prop
  | .pressSave => ¬ p.1.saves.Unserved
  | .pressLoad => ¬ p.1.loads.Unserved
  | _ => True

/-- A pass finds the flag of Save up only if it is the first since the latest Save press, and a
block of Save runs only when a pass has run since that press. -/
def SavedInTime (p : Presses × Controls K) : ControlsEvent K → Prop
  | .updateUIView _ => p.2.savePressed = true → p.1.saves.fresh = true
  | .clearSave => p.1.saves.fresh = false
  | _ => True

/-- After `es` there have been as many calls of `saveExperience` as presses of Save and as many of
`loadExperience` as presses of Load, one on account of each press. -/
def EachPressOnce (es : List (ControlsEvent K)) (p : Presses × Controls K) : Prop :=
  (p.2.saveCalls = es.countP ControlsEvent.isPressSave ∧ ∀ n ∈ p.1.saves.served, n = 1) ∧
    (p.2.loadCalls = es.countP ControlsEvent.isPressLoad ∧ ∀ n ∈ p.1.loads.served, n = 1)

instance (p : Presses × Controls K) : ∀ e, Decidable (PressedAfterServed p e) := by
  rintro ⟨⟩ <;> dsimp only [PressedAfterServed] <;> infer_instance

instance (p : Presses × Controls K) : ∀ e, Decidable (SavedInTime p e) := by
  rintro ⟨⟩ <;> dsimp only [SavedInTime] <;> infer_instance

instance (es : List (ControlsEvent K)) (p : Presses × Controls K) :
    Decidable (EachPressOnce es p) :=
  inferInstanceAs (Decidable (_ ∧ _))

/-! ## The two latches -/

/-- The latch of the Save button. -/
def saveLatch (p : Presses × Controls K) : Latch where
  raised := p.2.savePressed
  clears := p.2.saveResets
  calls := p.2.saveCalls
  requests := p.1.saves

def saveLatchEvent : ControlsEvent K → Option LatchEvent
  | .pressSave => some .raise
  | .updateUIView _ => some .poll
  | .clearSave => some .clear
  | _ => none

/-- The latch of the Load button, which schedules no block. -/
def loadLatch (p : Presses × Controls K) : Latch where
  raised := p.2.loadPressed
  clears := 0
  calls := p.2.loadCalls
  requests := p.1.loads

def loadLatchEvent : ControlsEvent K → Option LatchEvent
  | .pressLoad => some .raise
  | .updateUIView _ => some .poll
  | _ => none

omit [LinearOrder K] in
theorem saveLatchEvent_eq_raise {e : ControlsEvent K} :
    saveLatchEvent e = some .raise ↔ e = .pressSave := by
  cases e <;> simp [saveLatchEvent]

theorem saveLatch_projects :
    (pressesObserved K).ProjectsTo (latch true) saveLatch saveLatchEvent := by
  intro p e p' hobserved
  obtain ⟨h, hpresses⟩ := Machine.observe_step_eq_some.1 hobserved
  obtain ⟨presses, s⟩ := p
  obtain ⟨presses', s'⟩ := p'
  dsimp only at h hpresses
  have hquiet (hsame : SameFlags s s') (hsaves : presses'.saves = presses.saves) :
      saveLatch (presses', s') = saveLatch (presses, s) := by
    simp [saveLatch, hsame.savePressed, hsame.saveResets, hsame.saveCalls, hsaves]
  cases e with
  | pressSave =>
    obtain rfl := step_pressSave h
    subst hpresses
    rfl
  | pressLoad =>
    obtain rfl := step_pressLoad h
    subst hpresses
    rfl
  | updateUIView worldMap =>
    obtain ⟨hsave, -, hblocks, hcalls, -⟩ := step_updateUIView h
    subst hpresses
    cases hup : s.savePressed <;>
      simp [saveLatch, saveLatchEvent, followPresses, latch, Latch.step, Latch.serve, hsave,
        hblocks, hcalls, hup]
  | clearSave =>
    obtain ⟨hpositive, rfl⟩ := step_clearSave h
    subst hpresses
    simp [saveLatch, saveLatchEvent, latch, Latch.step, hpositive, setSavePressed, savePressed]
  | clearReset => exact congrArg some (hquiet (step_clearReset h) (by rw [hpresses]; rfl)).symm
  | currentWorldMap j data =>
    exact congrArg some (hquiet (step_currentWorldMap h) (by rw [hpresses]; rfl)).symm
  | app e => exact congrArg some (hquiet (step_app h) (by rw [hpresses]; rfl)).symm

omit [LinearOrder K] in
theorem loadLatchEvent_eq_raise {e : ControlsEvent K} :
    loadLatchEvent e = some .raise ↔ e = .pressLoad := by
  cases e <;> simp [loadLatchEvent]

theorem loadLatch_projects :
    (pressesObserved K).ProjectsTo (latch false) loadLatch loadLatchEvent := by
  intro p e p' hobserved
  obtain ⟨h, hpresses⟩ := Machine.observe_step_eq_some.1 hobserved
  obtain ⟨presses, s⟩ := p
  obtain ⟨presses', s'⟩ := p'
  dsimp only at h hpresses
  have hquiet (hsame : SameFlags s s') (hloads : presses'.loads = presses.loads) :
      loadLatch (presses', s') = loadLatch (presses, s) := by
    simp [loadLatch, hsame.loadPressed, hsame.loadCalls, hloads]
  cases e with
  | pressSave =>
    obtain rfl := step_pressSave h
    subst hpresses
    rfl
  | pressLoad =>
    obtain rfl := step_pressLoad h
    subst hpresses
    rfl
  | updateUIView worldMap =>
    obtain ⟨-, hload, -, -, hcalls⟩ := step_updateUIView h
    subst hpresses
    cases hup : s.loadPressed <;>
      simp [loadLatch, loadLatchEvent, followPresses, latch, Latch.step, Latch.serve, hload,
        hcalls, hup]
  | clearSave =>
    obtain ⟨-, rfl⟩ := step_clearSave h
    subst hpresses
    rfl
  | clearReset => exact congrArg some (hquiet (step_clearReset h) (by rw [hpresses]; rfl)).symm
  | currentWorldMap j data =>
    exact congrArg some (hquiet (step_currentWorldMap h) (by rw [hpresses]; rfl)).symm
  | app e => exact congrArg some (hquiet (step_app h) (by rw [hpresses]; rfl)).symm

/-! ## The presses of a run -/

section Run

variable {s : Controls K} {es : List (ControlsEvent K)} {p : Presses × Controls K}

theorem length_saves (hrun : (pressesObserved K).run ({}, s) es = some p) :
    p.1.saves.served.length = es.countP ControlsEvent.isPressSave := by
  have hlength := Latch.length_served (saveLatch_projects.run hrun)
  rw [List.count_filterMap] at hlength
  simp only [saveLatch, List.length_nil, Nat.zero_add] at hlength
  rw [hlength]
  refine List.countP_congr fun e _ => ?_
  cases e <;> simp [saveLatchEvent, ControlsEvent.isPressSave]

theorem length_loads (hrun : (pressesObserved K).run ({}, s) es = some p) :
    p.1.loads.served.length = es.countP ControlsEvent.isPressLoad := by
  have hlength := Latch.length_served (loadLatch_projects.run hrun)
  rw [List.count_filterMap] at hlength
  simp only [loadLatch, List.length_nil, Nat.zero_add] at hlength
  rw [hlength]
  refine List.countP_congr fun e _ => ?_
  cases e <;> simp [loadLatchEvent, ControlsEvent.isPressLoad]

theorem eachPressOnce_iff (hrun : (pressesObserved K).run ({}, s) es = some p) :
    EachPressOnce es p ↔ p.1.saves.EachOnce p.2.saveCalls ∧ p.1.loads.EachOnce p.2.loadCalls := by
  unfold EachPressOnce Requests.EachOnce
  rw [length_saves hrun, length_loads hrun]
  exact and_congr and_comm and_comm

end Run

/-! ## The result -/

section Result

variable {locations : List (Location K)} {storedData : UUID → Option Data}
  {worldMap : List (ARAnchor K)} {es es' : List (ControlsEvent K)} {p : Presses × Controls K}

theorem saves_each_once_iff
    (hserved : (pressesObserved K).Meets PressedAfterServed ({}, initial locations storedData)
      (es ++ .updateUIView worldMap :: es'))
    (hlast : ∀ e ∈ es', e.isPressSave = false)
    (hrun : (pressesObserved K).run ({}, initial locations storedData)
      (es ++ .updateUIView worldMap :: es') = some p) :
    p.1.saves.EachOnce p.2.saveCalls ↔
      (pressesObserved K).Meets SavedInTime ({}, initial locations storedData)
        (es ++ .updateUIView worldMap :: es') := by
  have hraised : (pressesObserved K).Meets
      (fun p e => saveLatchEvent e = some .raise → ¬ (saveLatch p).requests.Unserved)
      ({}, initial locations storedData) (es ++ .updateUIView worldMap :: es') := by
    refine hserved.mono fun p e _ hlatest hpress => ?_
    rw [saveLatchEvent_eq_raise.1 hpress] at hlatest
    exact hlatest
  have hnoPress : ∀ e ∈ es', saveLatchEvent e ≠ some .raise := by
    intro e he hpress
    have hno := hlast e he
    rw [saveLatchEvent_eq_raise.1 hpress] at hno
    cases hno
  have honce := Latch.eachOnce_iff_of_projects saveLatch_projects rfl rfl hraised hnoPress hrun
  refine honce.trans (Machine.meets_congr fun p e => ?_)
  cases e <;> simp [saveLatchEvent, saveLatch, Latch.InTime, SavedInTime]

theorem loads_each_once
    (hserved : (pressesObserved K).Meets PressedAfterServed ({}, initial locations storedData)
      (es ++ .updateUIView worldMap :: es'))
    (hlast : ∀ e ∈ es', e.isPressLoad = false)
    (hrun : (pressesObserved K).run ({}, initial locations storedData)
      (es ++ .updateUIView worldMap :: es') = some p) :
    p.1.loads.EachOnce p.2.loadCalls := by
  have hraised : (pressesObserved K).Meets
      (fun p e => loadLatchEvent e = some .raise → ¬ (loadLatch p).requests.Unserved)
      ({}, initial locations storedData) (es ++ .updateUIView worldMap :: es') := by
    refine hserved.mono fun p e _ hlatest hpress => ?_
    rw [loadLatchEvent_eq_raise.1 hpress] at hlatest
    exact hlatest
  have hnoPress : ∀ e ∈ es', loadLatchEvent e ≠ some .raise := by
    intro e he hpress
    have hno := hlast e he
    rw [loadLatchEvent_eq_raise.1 hpress] at hno
    cases hno
  exact Latch.eachOnce_of_projects loadLatch_projects rfl rfl hraised hnoPress hrun

/-- From launch, in a run where a button is pressed again only after its last press has been
served and a pass of `updateUIView` follows the last press of all, each press acts exactly once if
and only if every step meets `SavedInTime`. -/
theorem each_press_acts_once_iff
    (hserved : (pressesObserved K).Meets PressedAfterServed ({}, initial locations storedData)
      (es ++ .updateUIView worldMap :: es'))
    (hlast : ∀ e ∈ es', e.isPressSave = false ∧ e.isPressLoad = false)
    (hrun : (pressesObserved K).run ({}, initial locations storedData)
      (es ++ .updateUIView worldMap :: es') = some p) :
    EachPressOnce (es ++ .updateUIView worldMap :: es') p ↔
      (pressesObserved K).Meets SavedInTime ({}, initial locations storedData)
        (es ++ .updateUIView worldMap :: es') := by
  have hsaves := saves_each_once_iff hserved (fun e he => (hlast e he).1) hrun
  have hloads := loads_each_once hserved (fun e he => (hlast e he).2) hrun
  rw [eachPressOnce_iff hrun, hsaves]
  exact and_iff_left hloads

/-- One press of Save, and a second pass before the block of the first has run. -/
def savedTwice : List (ControlsEvent ℚ) :=
  [.app (.appear 0), .pressSave, .updateUIView [], .updateUIView [], .clearSave, .clearSave]

/-- The block of the first press runs between the second press and the pass that would serve it. -/
def takenBack : List (ControlsEvent ℚ) :=
  [.app (.appear 0), .pressSave, .updateUIView [], .pressSave, .clearSave, .updateUIView []]

/-- All blocks have run in the end, but the one press of the first run saved twice, and of the two
presses of the second only the first saved. -/
theorem press_saved_twice_or_not_at_all :
    ((pressesObserved ℚ).Meets PressedAfterServed ({}, initial [hallway] fun _ => none)
        savedTwice ∧
      ∃ p ∈ (pressesObserved ℚ).run ({}, initial [hallway] fun _ => none) savedTwice,
        p.2.saveResets = 0 ∧ p.2.saveCalls = 2 ∧ p.1.saves.served = [2] ∧
          ¬ EachPressOnce savedTwice p) ∧
      ((pressesObserved ℚ).Meets PressedAfterServed ({}, initial [hallway] fun _ => none)
          takenBack ∧
        ∃ p ∈ (pressesObserved ℚ).run ({}, initial [hallway] fun _ => none) takenBack,
          p.2.saveResets = 0 ∧ p.2.saveCalls = 1 ∧ p.1.saves.served = [0, 1] ∧
            ¬ EachPressOnce takenBack p) := by
  decide +kernel

/-- The hallway is saved, and what was stored before is loaded. -/
def saveThenLoad : List (ControlsEvent ℚ) :=
  [.app (.appear 0), .pressSave, .updateUIView [], .clearSave, .pressLoad]

/-- What comes after the pass that loads. -/
def afterLoad : List (ControlsEvent ℚ) := [.updateUIView [], .currentWorldMap 0 (some [2])]

theorem hallway_saved_and_loaded_once :
    ∃ p ∈ (pressesObserved ℚ).run ({}, initial [hallway] fun _ => some [1])
        (saveThenLoad ++ .updateUIView [] :: afterLoad),
      EachPressOnce (saveThenLoad ++ .updateUIView [] :: afterLoad) p := by
  obtain ⟨p, hrun⟩ := Option.isSome_iff_exists.1 (show ((pressesObserved ℚ).run
    ({}, initial [hallway] fun _ => some [1])
    (saveThenLoad ++ .updateUIView [] :: afterLoad)).isSome = true by decide +kernel)
  have honce := each_press_acts_once_iff (by decide +kernel) (by decide) hrun
  exact ⟨p, hrun, honce.2 (by decide +kernel)⟩

end Result

end Controls

end EyeMaps
