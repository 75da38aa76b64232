import Mathlib.Data.Rat.Floor
import EyeMaps.Framework.RateLimit
import EyeMaps.Model.Clock

/-!
# The cool-down as a rate limit

Two producers start a cool-down, the proximity timer that moves `step` on and `playSound`, and
both do so only while none is running.  So at most one reset is pending, and `coolDown` holds
exactly while one is (`Scene.OneReset`).  On the clock this spaces the increments of `step`: the
reset of the cool-down that an increment starts is due 5 s later, and until it has run there is
neither another increment nor a second reset that could cut the cool-down short.

`step_rate_limited` is the result, with the number of increments in a window from
`Framework.Spaced.length_window_le`.
-/

namespace EyeMaps

open Framework

namespace Scene

variable {K : Type}

/-- At most one reset is pending, and `coolDown` holds exactly while one is. -/
structure OneReset [CommRing K] (sc : Scene K) : Prop where
  coolDown_iff : sc.coolDown = true ↔ sc.resets = 1
  resets_le : sc.resets ≤ 1

variable [Field K] [LinearOrder K] {sc sc' : Scene K} {camera : SIMD3 K}

/-- Any event but a reset leaves the cool-down and `step` alone, or starts a cool-down while none
is running and may then move `step` on. -/
theorem next_coolDown {e : SceneEvent} (he : e ≠ .coolDownExpires)
    (hnext : sc.next camera e = some sc') :
    (sc'.coolDown = sc.coolDown ∧ sc'.resets = sc.resets ∧ sc'.step = sc.step) ∨
      (sc.coolDown = false ∧ sc'.coolDown = true ∧ sc'.resets = sc.resets + 1 ∧
        (sc'.step = sc.step ∨ sc'.step = sc.step + 1)) := by
  cases e with
  | playTimer b =>
    obtain ⟨box, -, -, ⟨-, rfl⟩ | ⟨-, rfl⟩⟩ := next_playTimer hnext <;> exact .inl ⟨rfl, rfl, rfl⟩
  | proximityTimer b =>
    obtain ⟨box, -, -, ⟨-, rfl⟩ | ⟨-, -, rfl⟩ | ⟨-, hcool, rfl⟩⟩ := next_proximityTimer hnext
    · exact .inl ⟨rfl, rfl, rfl⟩
    · exact .inl ⟨rfl, rfl, rfl⟩
    · exact .inr ⟨hcool, rfl, rfl, .inr rfl⟩
  | coolDownExpires => exact absurd rfl he
  | playSound outcome =>
    obtain rfl | ⟨hcool, rfl⟩ := next_playSound hnext
    · exact .inl ⟨rfl, rfl, rfl⟩
    · exact .inr ⟨hcool, rfl, rfl, .inl rfl⟩

end Scene

namespace AppState

variable {K : Type} [Field K] [LinearOrder K] {s s' : AppState K} {e : AppEvent K}

/-- So does any event of the app. -/
theorem step_coolDown (he : e.isReset = false) (hstep : (app K).step s e = some s') :
    (s'.scene.coolDown = s.scene.coolDown ∧ s'.scene.resets = s.scene.resets ∧
        s'.scene.step = s.scene.step) ∨
      (s.scene.coolDown = false ∧ s'.scene.coolDown = true ∧
        s'.scene.resets = s.scene.resets + 1 ∧
        (s'.scene.step = s.scene.step ∨ s'.scene.step = s.scene.step + 1)) := by
  rcases step_scene hstep with hsame | ⟨v, view, anchors, -, -, hadd⟩ | ⟨e', rfl, hnext⟩
  · rw [hsame]
    exact .inl ⟨rfl, rfl, rfl⟩
  · rw [hadd, CustomARView.sessionDidAdd_scene]
    exact .inl ⟨rfl, rfl, rfl⟩
  · refine Scene.next_coolDown ?_ hnext
    rintro rfl
    cases he

theorem step_coolDownExpires (hstep : (app K).step s (.scene .coolDownExpires) = some s') :
    0 < s.scene.resets ∧ s'.scene.coolDown = false ∧ s'.scene.resets = s.scene.resets - 1 ∧
      s'.scene.step = s.scene.step := by
  obtain ⟨sc', hnext, rfl⟩ := step_nextScene hstep
  obtain ⟨hpos, rfl⟩ := Scene.next_coolDownExpires hnext
  exact ⟨hpos, rfl, rfl, rfl⟩

end AppState

namespace Clocked

variable {K τ : Type} [Field K] [LinearOrder K] [Field τ] [LinearOrder τ] {s s' : Clocked K τ}
  {e : ClockedEvent K τ} {c : List τ}

/-- The observer of the times at which `step` has changed. -/
def increments (c : List τ) (s : Clocked K τ) (_ : ClockedEvent K τ) (s' : Clocked K τ) :
    List τ :=
  if s'.appState.scene.step = s.appState.scene.step then c else c ++ [s'.now]

/-- The increments so far are at least 5 s apart, and 5 s have gone by since each of them unless
a reset is pending, which is then due no earlier. -/
structure RateLimited (c : List τ) (s : Clocked K τ) : Prop where
  oneReset : s.appState.scene.OneReset
  due_length : s.due.length = s.appState.scene.resets
  spaced : Spaced 5 c
  length_eq : c.length = s.appState.scene.step
  waits : ∀ a ∈ c, ∀ d ∈ s.due, a + 5 ≤ d
  passed : s.due = [] → ∀ a ∈ c, a + 5 ≤ s.now

omit [LinearOrder K] in
/-- With a cool-down running its reset is the only one pending, without one none is. -/
theorem RateLimited.due_cases (h : RateLimited c s) :
    (s.appState.scene.coolDown = false ∧ s.due = []) ∨
      ∃ d, s.appState.scene.coolDown = true ∧ s.due = [d] := by
  have hlen := h.due_length
  have hle := h.oneReset.resets_le
  have hiff := h.oneReset.coolDown_iff
  cases hcool : s.appState.scene.coolDown with
  | false =>
    have hnone : s.appState.scene.resets ≠ 1 := fun hone => by simp [hcool, hone] at hiff
    exact .inl ⟨rfl, List.eq_nil_of_length_eq_zero (by omega)⟩
  | true =>
    have hone : s.appState.scene.resets = 1 := hiff.1 hcool
    obtain ⟨d, hd⟩ := List.length_eq_one_iff.1 (hlen.trans hone)
    exact .inr ⟨d, rfl, hd⟩

omit [LinearOrder K] [Field τ] [LinearOrder τ] in
/-- The times recorded by the observer, with the change of `step` written out. -/
theorem increments_cases (c : List τ) (e : ClockedEvent K τ)
    (hstep : s'.appState.scene.step = s.appState.scene.step ∨
      s'.appState.scene.step = s.appState.scene.step + 1) :
    (s'.appState.scene.step = s.appState.scene.step ∧ increments c s e s' = c) ∨
      (s'.appState.scene.step = s.appState.scene.step + 1 ∧
        increments c s e s' = c ++ [s'.now]) := by
  rcases hstep with hsame | hadv
  · exact .inl ⟨hsame, if_pos hsame⟩
  · exact .inr ⟨hadv, if_neg (by omega)⟩

/-- The pending reset runs: it was due 5 s after the increments so far. -/
theorem RateLimited.expire {time : τ} {j : ℕ} (h : RateLimited c s)
    (hstep : (clocked K τ).step s (.reset time j) = some s') :
    RateLimited (increments c s (.reset time j) s') s' := by
  obtain ⟨d, hd, -, hdue_le, happ, hnow, hdue⟩ := step_reset hstep
  obtain ⟨hpos, hcool', hresets', hsame⟩ := AppState.step_coolDownExpires happ
  have hle := h.oneReset.resets_le
  have honly : s.due = [d] ∧ s'.due = [] := by
    rcases h.due_cases with ⟨-, hnone⟩ | ⟨d', -, hone⟩
    · simp [hnone] at hd
    · rw [hone] at hd
      obtain ⟨hj, hget⟩ := List.getElem?_eq_some_iff.1 hd
      obtain rfl : j = 0 := by simpa using hj
      obtain rfl : d' = d := hget
      exact ⟨hone, by rw [hdue, hone]; rfl⟩
  rw [increments, if_pos hsame]
  refine ⟨⟨?_, by omega⟩, ?_, h.spaced, h.length_eq.trans hsame.symm, by simp [honly.2], ?_⟩
  · simp only [hcool', hresets', Bool.false_eq_true, false_iff]
    omega
  · rw [honly.2, hresets', List.length_nil]
    omega
  · intro _ a ha
    rw [hnow]
    exact (h.waits a ha d (by simp [honly.1])).trans hdue_le

variable [IsStrictOrderedRing τ]

omit [LinearOrder K] in
/-- A cool-down starts: none was running, so 5 s have gone by since every increment. -/
theorem RateLimited.start {time : τ} {e : ClockedEvent K τ} (h : RateLimited c s)
    (hcool : s.appState.scene.coolDown = false) (hcool' : s'.appState.scene.coolDown = true)
    (hresets : s'.appState.scene.resets = s.appState.scene.resets + 1)
    (hstep : s'.appState.scene.step = s.appState.scene.step ∨
      s'.appState.scene.step = s.appState.scene.step + 1)
    (hle : s.now ≤ time) (hnow : s'.now = time) (hdue : s'.due = s.due ++ [time + 5]) :
    RateLimited (increments c s e s') s' := by
  have hnone : s.due = [] := by
    rcases h.due_cases with ⟨-, hnone⟩ | ⟨d, hrunning, -⟩
    · exact hnone
    · simp [hcool] at hrunning
  have hzero : s.appState.scene.resets = 0 := by
    rw [← h.due_length, hnone, List.length_nil]
  have hpassed : ∀ a ∈ c, a + 5 ≤ time := fun a ha => (h.passed hnone a ha).trans hle
  have hwaits : ∀ a ∈ c, a + 5 ≤ time + 5 := by
    intro a ha
    have := hpassed a ha
    linarith
  have hone : s'.appState.scene.OneReset := ⟨by simp [hcool', hresets, hzero], by omega⟩
  have hlen : s'.due.length = s'.appState.scene.resets := by simp [hdue, hnone, hresets, hzero]
  rcases increments_cases c e hstep with ⟨hsame, hlog⟩ | ⟨hadv, hlog⟩
  · rw [hlog]
    refine ⟨hone, hlen, h.spaced, h.length_eq.trans hsame.symm, ?_, by simp [hdue]⟩
    intro a ha d hd
    obtain rfl : d = time + 5 := by simpa [hdue, hnone] using hd
    exact hwaits a ha
  · rw [hlog, hnow]
    refine ⟨hone, hlen, h.spaced.append hpassed, ?_, ?_, by simp [hdue]⟩
    · rw [List.length_append, h.length_eq, hadv, List.length_singleton]
    · intro a ha d hd
      obtain rfl : d = time + 5 := by simpa [hdue, hnone] using hd
      rcases List.mem_append.1 ha with hold | hnew
      · exact hwaits a hold
      · rw [List.mem_singleton.1 hnew]

theorem rateLimited_step (h : RateLimited c s) (hstep : (clocked K τ).step s e = some s') :
    RateLimited (increments c s e s') s' := by
  cases e with
  | reset time j => exact h.expire hstep
  | event time e =>
    obtain ⟨hle, he, happ, hnow, hdue⟩ := step_event hstep
    rcases AppState.step_coolDown he happ with
        ⟨hcool, hresets, hsame⟩ | ⟨hcool, hcool', hresets, hadv⟩
    · have hkept : s'.due = s.due := by rw [hdue, if_neg (by omega)]
      rw [increments, if_pos hsame]
      refine ⟨⟨?_, ?_⟩, ?_, h.spaced, h.length_eq.trans hsame.symm, ?_, ?_⟩
      · rw [hcool, hresets]
        exact h.oneReset.coolDown_iff
      · exact hresets.le.trans h.oneReset.resets_le
      · rw [hkept, hresets]
        exact h.due_length
      · rw [hkept]
        exact h.waits
      · intro hnone a ha
        rw [hkept] at hnone
        exact (h.passed hnone a ha).trans (hle.trans hnow.ge)
    · exact h.start hcool hcool' hresets hadv hle hnow (by rw [hdue, if_pos (by omega)])

/-! ## The result -/

variable [FloorSemiring τ] {locations : List (Location K)} {storedData : UUID → Option Data}

/-- In every run on the clock, `coolDown` holds exactly while one reset is pending and never more
than one is; the increments of `step` are at least 5 s apart, and a window of length `T` holds at
most `⌊T / 5⌋ + 1` of them. -/
theorem step_rate_limited {start : τ} {es : List (ClockedEvent K τ)}
    (hrun : ((clocked K τ).observe increments).run ([], initial start locations storedData) es =
      some (c, s)) :
    (s.appState.scene.coolDown = true ↔ s.due.length = 1) ∧ s.due.length ≤ 1 ∧
      c.length = s.appState.scene.step ∧ Spaced 5 c ∧
      ∀ a T, (window a T c).length ≤ ⌊T / 5⌋₊ + 1 := by
  have hinit : RateLimited [] (initial start locations storedData : Clocked K τ) :=
    ⟨⟨by simp [initial, AppState.initial, Scene.initial],
      by simp [initial, AppState.initial, Scene.initial]⟩, rfl, .nil, rfl, by simp, by simp⟩
  have hfinal : RateLimited c s :=
    Machine.invariant_of_observed_step (fun _ _ _ _ => rateLimited_step) hinit hrun
  refine ⟨?_, ?_, hfinal.length_eq, hfinal.spaced, fun a T => ?_⟩
  · rw [hfinal.due_length]
    exact hfinal.oneReset.coolDown_iff
  · exact hfinal.due_length.le.trans hfinal.oneReset.resets_le
  · exact hfinal.spaced.length_window_le (by norm_num) a T

/-- Both waypoints of the hallway are passed, the second one 7 s after the first. -/
def passBoth : List (ClockedEvent ℚ ℚ) :=
  [.event 0 (.appear 0),
    .event 1 (.didAdd 0 [({ name := some CustomARView.virtualObjectAnchorName, transform := 1 },
      fun _ => true)]),
    .event 2 (.cameraTimer 0 1), .event 3 (.scene (.proximityTimer 0)),
    .event 4 (.scene (.playSound .plays)), .event 5 (.scene (.proximityTimer 0)), .reset 9 0,
    .event 9 (.cameraTimer 0 (RigidMotion.translate ![10, 0, 0])),
    .event 10 (.scene (.proximityTimer 1))]

theorem both_waypoints_rate_limited :
    ∃ s, ((clocked ℚ ℚ).observe increments).run ([], initial 0 [hallway] fun _ => none) passBoth =
        some ([3, 10], s) ∧
      (s.appState.scene.coolDown = true ↔ s.due.length = 1) ∧ Spaced 5 ([3, 10] : List ℚ) ∧
      (window 3 6 ([3, 10] : List ℚ)).length ≤ ⌊(6 : ℚ) / 5⌋₊ + 1 := by
  have hsome : (((clocked ℚ ℚ).observe increments).run ([], initial 0 [hallway] fun _ => none)
      passBoth).map (fun p => p.1) = some [3, 10] := by
    decide +kernel
  obtain ⟨⟨c, s⟩, hrun, hc⟩ := Option.map_eq_some_iff.1 hsome
  obtain rfl : c = [3, 10] := hc
  obtain ⟨hcool, -, -, hspaced, hwindow⟩ := step_rate_limited hrun
  exact ⟨s, hrun, hcool, hspaced, hwindow 3 6⟩

end Clocked

end EyeMaps
