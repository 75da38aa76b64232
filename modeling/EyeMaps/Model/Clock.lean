import EyeMaps.Model.App

/-!
# The app on a clock

`clocked` runs the app with the time at which each event happens.  Times never go back, and the
block that ends a cool-down, scheduled with `asyncAfter(deadline: .now() + 5.0)`, runs no earlier
than 5 s after it was scheduled; it may run any time later.  `due` keeps that earliest time for
each block that has not run yet, in the order in which they were scheduled.

Times are elements of an arbitrary ordered field `τ`.
-/

namespace EyeMaps

open Framework

structure Clocked (K τ : Type) [CommRing K] where
  appState : AppState K
  now : τ
  /-- the times before which the pending resets of `coolDown` do not run -/
  due : List τ

inductive ClockedEvent (K τ : Type) [CommRing K]
  | event (time : τ) (e : AppEvent K)
  /-- the reset scheduled as the `j`-th of those pending -/
  | reset (time : τ) (j : ℕ)

/-- The event is a reset of `coolDown`. -/
def AppEvent.isReset {K : Type} [CommRing K] : AppEvent K → Bool
  | .scene .coolDownExpires => true
  | _ => false

namespace Clocked

variable {K τ : Type}

/-- The app launched at time `t`. -/
def initial [CommRing K] (t : τ) (locations : List (Location K))
    (storedData : UUID → Option Data) : Clocked K τ where
  appState := AppState.initial locations storedData
  now := t
  due := []

variable [Field K] [LinearOrder K] [Field τ] [LinearOrder τ]

/-- An event other than a reset; if it schedules a reset, that one is due in 5 s. -/
def event (time : τ) (e : AppEvent K) (s : Clocked K τ) : Option (Clocked K τ) :=
  if s.now ≤ time ∧ e.isReset = false then do
    let appState ← (app K).step s.appState e
    let due :=
      if s.appState.scene.resets < appState.scene.resets then s.due ++ [time + 5] else s.due
    some { appState := appState, now := time, due := due }
  else none

def reset (time : τ) (j : ℕ) (s : Clocked K τ) : Option (Clocked K τ) := do
  let d ← s.due[j]?
  if s.now ≤ time ∧ d ≤ time then do
    let appState ← (app K).step s.appState (.scene .coolDownExpires)
    some { appState := appState, now := time, due := s.due.eraseIdx j }
  else none

def next (s : Clocked K τ) : ClockedEvent K τ → Option (Clocked K τ)
  | .event time e => s.event time e
  | .reset time j => s.reset time j

end Clocked

/-- The machine of the app on a clock. -/
def clocked (K τ : Type) [Field K] [LinearOrder K] [Field τ] [LinearOrder τ] :
    Machine (Clocked K τ) (ClockedEvent K τ) where
  step := Clocked.next

namespace Clocked

variable {K τ : Type} [Field K] [LinearOrder K] [Field τ] [LinearOrder τ] {s s' : Clocked K τ}

theorem step_event {time : τ} {e : AppEvent K}
    (h : (clocked K τ).step s (.event time e) = some s') :
    s.now ≤ time ∧ e.isReset = false ∧ (app K).step s.appState e = some s'.appState ∧
      s'.now = time ∧ s'.due =
        if s.appState.scene.resets < s'.appState.scene.resets then s.due ++ [time + 5]
        else s.due := by
  simp only [clocked, next, event] at h
  split at h
  case isFalse => cases h
  case isTrue hcond =>
    obtain ⟨appState, happ, h⟩ := Option.bind_eq_some_iff.1 h
    obtain rfl := Option.some.inj h
    exact ⟨hcond.1, hcond.2, happ, rfl, rfl⟩

theorem step_reset {time : τ} {j : ℕ} (h : (clocked K τ).step s (.reset time j) = some s') :
    ∃ d, s.due[j]? = some d ∧ s.now ≤ time ∧ d ≤ time ∧
      (app K).step s.appState (.scene .coolDownExpires) = some s'.appState ∧
      s'.now = time ∧ s'.due = s.due.eraseIdx j := by
  obtain ⟨d, hd, h⟩ := Option.bind_eq_some_iff.1 h
  split at h
  case isFalse => cases h
  case isTrue hcond =>
    obtain ⟨appState, happ, h⟩ := Option.bind_eq_some_iff.1 h
    obtain rfl := Option.some.inj h
    exact ⟨d, hd, hcond.1, hcond.2, happ, rfl, rfl⟩

end Clocked

end EyeMaps
