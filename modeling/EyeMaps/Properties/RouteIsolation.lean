import EyeMaps.Model.App

/-!
# Route isolation

The route of an open location lives in the module-level buffers and is copied into the list by the
0.1 s timer of every map opened so far.  Closing a map empties the buffers but leaves its timer
running, so one tick later the closed location is erased, and once another map is open its route
is written into every location whose map was ever opened.

`Recorded` observes what is recorded while each location is the open one.  In every run whose
steps meet `RecordsOwnRoute` (a timer writes to the open location, or to one that already holds
what the buffers hold; a map is opened with an empty waypoint buffer and balanced arrays) each
step is an `IsolatedStep`, and every location ends as it started plus a part of what was recorded
for it (`route_isolated`).  Waypoints recorded after the last tick before closing are not written,
which is why a sublist is claimed.
-/

namespace EyeMaps

open Framework

/-- The stored form of the recording buffers. -/
def Globals.route {K : Type} (g : Globals K) : Route K :=
  ⟨g.directions, g.transformations.map SIMD3.x, g.transformations.map SIMD3.y,
    g.transformations.map SIMD3.z⟩

/-- For each index of the list, what was recorded while that location was open. -/
structure Recorded (K : Type) where
  pressed : ℕ → List String
  appended : ℕ → List (SIMD3 K)

def Recorded.initial {K : Type} : Recorded K := ⟨fun _ => [], fun _ => []⟩

/-- The route of `l` is that of `l₀` followed by the directions `pressed` and by waypoints that,
together with the `pending` ones after them, are part of `appended`. -/
structure RouteFrom {K : Type} (l₀ : Location K) (pressed : List String)
    (appended pending : List (SIMD3 K)) (l : Location K) : Prop where
  directions : l.directions = l₀.directions ++ pressed
  waypoints : ∃ ws, (ws ++ pending).Sublist appended ∧
    l.transformationsX = l₀.transformationsX ++ ws.map SIMD3.x ∧
    l.transformationsY = l₀.transformationsY ++ ws.map SIMD3.y ∧
    l.transformationsZ = l₀.transformationsZ ++ ws.map SIMD3.z

namespace RouteFrom

variable {K : Type} {l₀ l l' : Location K} {pressed : List String}
  {appended pending : List (SIMD3 K)}

theorem refl (l₀ : Location K) : RouteFrom l₀ [] [] [] l₀ :=
  ⟨by simp, [], by simp⟩

/-- Pending waypoints may be lost. -/
theorem drop (h : RouteFrom l₀ pressed appended pending l) :
    RouteFrom l₀ pressed appended [] l := by
  obtain ⟨ws, hsub, hxyz⟩ := h.waypoints
  refine ⟨h.directions, ws, ?_, hxyz⟩
  rw [List.append_nil]
  exact (List.sublist_append_left ws pending).trans hsub

theorem congr (h : RouteFrom l₀ pressed appended pending l) (hroute : l'.route = l.route) :
    RouteFrom l₀ pressed appended pending l' := by
  simp only [Location.route, Route.mk.injEq] at hroute
  obtain ⟨hd, hx, hy, hz⟩ := hroute
  exact ⟨hd.trans h.directions, by rw [hx, hy, hz]; exact h.waypoints⟩

theorem press (h : RouteFrom l₀ pressed appended pending l) (item : MenuItem) :
    RouteFrom l₀ (pressed ++ [item.audio]) appended pending (ContentView.pressLocation item l) :=
  ⟨by simp [ContentView.pressLocation, h.directions], h.waypoints⟩

theorem append (h : RouteFrom l₀ pressed appended pending l) (ws : List (SIMD3 K)) :
    RouteFrom l₀ pressed (appended ++ ws) (pending ++ ws) l := by
  obtain ⟨ws₀, hsub, hxyz⟩ := h.waypoints
  refine ⟨h.directions, ws₀, ?_, hxyz⟩
  rw [← List.append_assoc]
  exact hsub.append_right ws

/-- A fire of the timer on buffers that hold the route and the pending waypoints writes the
pending ones. -/
theorem timer {g : Globals K} {worldMapData : Option Data}
    (h : RouteFrom l₀ pressed appended pending l) (hbalanced : l.Balanced)
    (hdirections : g.directions = l.directions)
    (htransformations : g.transformations = l.waypoints ++ pending) :
    RouteFrom l₀ pressed appended [] (ContentView.timer g worldMapData l) := by
  obtain ⟨ws, hsub, hx, hy, hz⟩ := h.waypoints
  refine ⟨by simp [ContentView.timer_eq, hdirections, h.directions], ws ++ pending, by simpa, ?_⟩
  simp [ContentView.timer_eq, htransformations, Location.map_x_waypoints hbalanced,
    Location.map_y_waypoints hbalanced, Location.map_z_waypoints hbalanced, hx, hy, hz]

end RouteFrom

/-- Events that write the route of a location. -/
def AppEvent.writesRoute {K : Type} [CommRing K] : AppEvent K → Bool
  | .press _ | .contentTimer _ => true
  | _ => false

namespace AppState

variable {K : Type} [Field K] [LinearOrder K] {s s' : AppState K} {e : AppEvent K}
  {c : Recorded K} {locations : List (Location K)}

/-- The observer of what is recorded for the open location. -/
def recording (c : Recorded K) (s : AppState K) (e : AppEvent K) (_ : AppState K) : Recorded K :=
  match s.openLocation, e with
  | some k, .press item =>
    { c with pressed := Function.update c.pressed k (c.pressed k ++ [item.audio]) }
  | some k, .gestureTimer v r₁ _ =>
    { c with appended := Function.update c.appended k (c.appended k ++ s.acceptedBy v r₁) }
  | _, _ => c

/-- A step changes the route of a location only if that location is open, and only by a press or
by a fire of a 0.1 s timer. -/
def IsolatedStep (s : AppState K) (e : AppEvent K) (s' : AppState K) : Prop :=
  ∀ k, s'.locations[k]?.map Location.route ≠ s.locations[k]?.map Location.route →
    s.openLocation = some k ∧ e.writesRoute = true

instance (s : AppState K) (e : AppEvent K) (s' : AppState K) : Decidable (IsolatedStep s e s') :=
  decidable_of_iff
    (∀ k < max s.locations.length s'.locations.length,
      s'.locations[k]?.map Location.route ≠ s.locations[k]?.map Location.route →
        s.openLocation = some k ∧ e.writesRoute = true)
    ⟨fun h k hne => h k (by
        by_contra hk
        have hs : s.locations.length ≤ k := by omega
        have hs' : s'.locations.length ≤ k := by omega
        exact hne (by rw [List.getElem?_eq_none hs, List.getElem?_eq_none hs'])) hne,
      fun h k _ hne => h k hne⟩

/-- Every location of the list is the one it started as, with a part of what was recorded for it
appended. -/
structure RoutesRecorded (locations : List (Location K)) (c : Recorded K) (s : AppState K) :
    Prop where
  length : s.locations.length = locations.length
  route : ∀ k l₀ l, locations[k]? = some l₀ → s.locations[k]? = some l →
    RouteFrom l₀ (c.pressed k) (c.appended k) [] l

/-- A map is opened with an empty waypoint buffer and balanced arrays, and a timer fires for the
open location or for one that already holds the route of the buffers. -/
def RecordsOwnRoute (s : AppState K) : AppEvent K → Prop
  | .appear k => s.globals.transformations = [] ∧ ∀ l ∈ s.locations[k]?, l.Balanced
  | .contentTimer v => ∀ view ∈ s.views[v]?, s.openLocation = some view.timerBinding ∨
      ∀ l ∈ s.locations[view.timerBinding]?, l.route = s.globals.route
  | _ => True

instance (s : AppState K) : ∀ e, Decidable (RecordsOwnRoute s e) := by
  rintro ⟨⟩ <;> dsimp only [RecordsOwnRoute] <;> infer_instance

/-! ## The invariant -/

/-- Each location is as recorded, up to waypoints still pending in the buffers of the open one. -/
structure RoutesKept (locations : List (Location K)) (c : Recorded K) (s : AppState K) :
    Prop where
  length : s.locations.length = locations.length
  bindings : ∀ p ∈ s.views.map MapView.bindings, p.1 = p.2
  route : ∀ k l₀ l, locations[k]? = some l₀ → s.locations[k]? = some l →
    ∃ pending, RouteFrom l₀ (c.pressed k) (c.appended k) pending l ∧
      (s.openLocation = some k → l.Balanced ∧ s.globals.directions = l.directions ∧
        s.globals.transformations = l.waypoints ++ pending)

omit [LinearOrder K] in
theorem RoutesKept.routesRecorded (h : RoutesKept locations c s) : RoutesRecorded locations c s :=
  ⟨h.length, fun k l₀ l hl₀ hl => by
    obtain ⟨pending, hroute, -⟩ := h.route k l₀ l hl₀ hl
    exact hroute.drop⟩

omit [LinearOrder K] in
/-- Steps that record nothing keep the invariant. -/
theorem RoutesKept.congr (h : RoutesKept locations c s) (hsame : SameRecording s s') :
    RoutesKept locations c s' where
  length := by rw [hsame.locations]; exact h.length
  bindings := by rw [hsame.bindings]; exact h.bindings
  route := by
    rw [hsame.locations, openLocation_congr hsame.opened hsame.bindings, hsame.directions,
      hsame.transformations]
    exact h.route

theorem RoutesKept.appear {k : ℕ} (h : RoutesKept locations c s)
    (hcond : RecordsOwnRoute s (.appear k)) (hstep : (app K).step s (.appear k) = some s') :
    RoutesKept locations c s' := by
  obtain ⟨l, g, view, _, -, hl, hg, hview, rfl⟩ := step_appear hstep
  obtain ⟨hempty, hbalanced⟩ := hcond
  rw [ContentView.onAppear_eq_some (hbalanced l hl)] at hg
  cases hg
  subst hview
  refine ⟨h.length, ?_, fun k' l₀ l' hl₀ hl' => ?_⟩
  · intro p hp
    rw [List.map_append, List.mem_append] at hp
    rcases hp with hp | hp
    · exact h.bindings p hp
    · rw [List.mem_singleton.1 hp]
      rfl
  · obtain ⟨pending, hroute, -⟩ := h.route k' l₀ l' hl₀ hl'
    refine ⟨[], hroute.drop, fun hopen => ?_⟩
    have hk : k = k' := by simpa [openLocation, openView] using hopen
    subst hk
    cases hl.symm.trans hl'
    exact ⟨hbalanced l hl, rfl, by simp [hempty]⟩

theorem RoutesKept.disappear (h : RoutesKept locations c s)
    (hstep : (app K).step s .disappear = some s') : RoutesKept locations c s' := by
  obtain ⟨v, view, _, -, hview, rfl⟩ := step_disappear hstep
  have hbindings : (s.views.set v { view with worldMapData := some [] }).map MapView.bindings =
      s.views.map MapView.bindings := map_set_eq_map hview rfl
  refine ⟨h.length, fun p hp => h.bindings p (hbindings ▸ hp), fun k l₀ l hl₀ hl => ?_⟩
  obtain ⟨pending, hroute, -⟩ := h.route k l₀ l hl₀ hl
  exact ⟨[], hroute.drop, fun hopen => by simp [openLocation, openView] at hopen⟩

theorem RoutesKept.contentTimer {v : ℕ} (h : RoutesKept locations c s)
    (hcond : RecordsOwnRoute s (.contentTimer v))
    (hstep : (app K).step s (.contentTimer v) = some s') : RoutesKept locations c s' := by
  have hopenSame := step_openLocation hstep rfl
  have hbindings := (step_stays hstep rfl).2
  obtain ⟨view, l, hview, hl, rfl⟩ := step_contentTimer hstep
  refine ⟨by simpa using h.length, fun p hp => h.bindings p (hbindings ▸ hp),
    fun k l₀ l' hl₀ hl' => ?_⟩
  rw [hopenSame]
  rcases getElem?_set_cases hl' with ⟨rfl, rfl⟩ | ⟨-, hold⟩
  · obtain ⟨pending, hroute, hbuffers⟩ := h.route _ l₀ l hl₀ hl
    by_cases hopen : s.openLocation = some view.timerBinding
    · -- the pending waypoints of the open location are written
      obtain ⟨hbalanced, hdirections, htransformations⟩ := hbuffers hopen
      exact ⟨[], hroute.timer hbalanced hdirections htransformations, fun _ =>
        ⟨ContentView.balanced_timer _ _ _, by simp [ContentView.timer_eq], by simp⟩⟩
    · -- the location already holds what the buffers hold
      have hsame := (hcond view hview).resolve_left hopen l hl
      exact ⟨pending, hroute.congr (by rw [ContentView.timer_route, hsame, Globals.route]),
        fun hk => absurd hk hopen⟩
  · exact h.route k l₀ l' hl₀ hold

theorem RoutesKept.press {item : MenuItem} (h : RoutesKept locations c s)
    (hstep : (app K).step s (.press item) = some s') :
    RoutesKept locations (recording c s (.press item) s') s' := by
  obtain ⟨view, l, hview, hl, rfl⟩ := step_press hstep
  have hopen : s.openLocation = some view.binding := by simp [openLocation, hview]
  refine ⟨by simpa using h.length, h.bindings, fun k l₀ l' hl₀ hl' => ?_⟩
  simp only [recording, hopen]
  rcases getElem?_set_cases hl' with ⟨rfl, rfl⟩ | ⟨hne, hold⟩
  · obtain ⟨pending, hroute, hbuffers⟩ := h.route _ l₀ l hl₀ hl
    obtain ⟨hbalanced, hdirections, htransformations⟩ := hbuffers hopen
    refine ⟨pending, ?_, fun _ => ⟨hbalanced, ?_, htransformations⟩⟩
    · simpa using hroute.press item
    · simp [ContentView.press, ContentView.pressLocation, hdirections]
  · obtain ⟨pending, hroute, -⟩ := h.route k l₀ l' hl₀ hold
    refine ⟨pending, by simpa [Function.update_of_ne hne] using hroute, fun hk => ?_⟩
    exact absurd (Option.some.inj (hopen.symm.trans hk)).symm hne

theorem RoutesKept.gestureTimer {v : ℕ} {r₁ r₂ : Raycast K} (h : RoutesKept locations c s)
    (hstep : (app K).step s (.gestureTimer v r₁ r₂) = some s') :
    RoutesKept locations (recording c s (.gestureTimer v r₁ r₂) s') s' := by
  have hopenSame := step_openLocation hstep rfl
  have hbindings := (step_stays hstep rfl).2
  obtain ⟨view, hview, rfl⟩ := step_gestureTimer hstep
  have haccepted : s.acceptedBy v r₁ = CustomARView.accepted r₁ s.globals view.arView := by
    simp [acceptedBy, hview]
  refine ⟨h.length, fun p hp => h.bindings p (hbindings ▸ hp), fun k l₀ l hl₀ hl => ?_⟩
  obtain ⟨pending, hroute, hbuffers⟩ := h.route k l₀ l hl₀ hl
  rw [hopenSame]
  by_cases hopen : s.openLocation = some k
  · -- what the fire accepts joins the pending waypoints
    obtain ⟨hbalanced, hdirections, htransformations⟩ := hbuffers hopen
    refine ⟨pending ++ s.acceptedBy v r₁, ?_, fun _ => ⟨hbalanced, ?_, ?_⟩⟩
    · simpa [recording, hopen] using hroute.append (s.acceptedBy v r₁)
    · simpa using hdirections
    · simp [CustomARView.gestureTimer_transformations, htransformations, haccepted]
  · refine ⟨pending, ?_, fun hk => absurd hk hopen⟩
    cases hlocation : s.openLocation with
    | none => simpa [recording, hlocation] using hroute
    | some k' =>
      have hne : k ≠ k' := fun hk => hopen (hk ▸ hlocation)
      simpa [recording, hlocation, Function.update_of_ne hne] using hroute

omit [LinearOrder K] in
theorem recording_eq_self (hpress : ∀ item, e ≠ .press item)
    (hgesture : ∀ v r₁ r₂, e ≠ .gestureTimer v r₁ r₂) : recording c s e s' = c := by
  unfold recording
  split
  · exact absurd rfl (hpress _)
  · exact absurd rfl (hgesture _ _ _)
  · rfl

theorem routesKept_step (h : RoutesKept locations c s) (hcond : RecordsOwnRoute s e)
    (hstep : (app K).step s e = some s') :
    RoutesKept locations (recording c s e s') s' := by
  cases e with
  | press item => exact h.press hstep
  | gestureTimer v r₁ r₂ => exact h.gestureTimer hstep
  | appear k =>
    rw [recording_eq_self (by simp) (by simp)]
    exact h.appear hcond hstep
  | disappear =>
    rw [recording_eq_self (by simp) (by simp)]
    exact h.disappear hstep
  | contentTimer v =>
    rw [recording_eq_self (by simp) (by simp)]
    exact h.contentTimer hcond hstep
  | _ =>
    rw [recording_eq_self (by simp) (by simp)]
    exact h.congr (step_quiet hstep rfl)

/-! ## The result -/

/-- A step that meets the condition is isolated. -/
theorem isolatedStep_of_recordsOwnRoute (hcond : RecordsOwnRoute s e)
    (hstep : (app K).step s e = some s') : IsolatedStep s e s' := by
  intro k hchange
  cases e with
  | appear k' =>
    obtain ⟨_, _, _, _, -, -, -, -, rfl⟩ := step_appear hstep
    exact absurd rfl hchange
  | disappear =>
    obtain ⟨_, _, _, -, -, rfl⟩ := step_disappear hstep
    exact absurd rfl hchange
  | contentTimer v =>
    obtain ⟨view, l, hview, hl, rfl⟩ := step_contentTimer hstep
    by_cases hk : view.timerBinding = k
    · subst hk
      refine ⟨(hcond view hview).resolve_right fun hsame => hchange ?_, rfl⟩
      rw [getElem?_set_self' hl, hl]
      simp [hsame l hl, Globals.route]
    · exact absurd (by rw [List.getElem?_set_ne hk]) hchange
  | press item =>
    obtain ⟨view, l, hview, hl, rfl⟩ := step_press hstep
    by_cases hk : view.binding = k
    · exact ⟨by simp [openLocation, hview, hk], rfl⟩
    · exact absurd (by rw [List.getElem?_set_ne hk]) hchange
  | gestureTimer v r₁ r₂ =>
    obtain ⟨_, -, rfl⟩ := step_gestureTimer hstep
    exact absurd rfl hchange
  | _ => exact absurd (by rw [(step_quiet hstep rfl).locations]) hchange

/-- In every run that records each route only while it is open, every step is isolated and every
location ends as it started, with a part of what was recorded for it appended. -/
theorem route_isolated {storedData : UUID → Option Data} {es : List (AppEvent K)}
    (hmeets : (app K).Meets RecordsOwnRoute (initial locations storedData) es)
    (hrun : ((app K).observe recording).run (Recorded.initial, initial locations storedData) es =
      some (c, s)) :
    (app K).Along IsolatedStep (initial locations storedData) es ∧
      RoutesRecorded locations c s := by
  have hinit : RoutesKept locations Recorded.initial (initial locations storedData) := by
    refine ⟨rfl, by simp [initial], fun k l₀ l hl₀ hl => ?_⟩
    cases hl₀.symm.trans hl
    exact ⟨[], RouteFrom.refl l₀, by simp [initial, openLocation, openView]⟩
  refine ⟨Machine.along_of_meets (P := fun _ => True) ?_ trivial hmeets, ?_⟩
  · exact fun s e s' _ hcond hstep => ⟨trivial, isolatedStep_of_recordsOwnRoute hcond hstep⟩
  · have hfinal : RoutesKept locations c s :=
      Machine.invariant_of_observed (fun _ _ _ _ => routesKept_step) hinit
        (Machine.along_observe_iff.2 hmeets) hrun
    exact hfinal.routesRecorded

/-! ### One tick after closing

The hallway is opened and closed; the next fire of its timer erases its route.  While it is open,
its own timer writes what is recorded. -/

theorem closed_map_erased :
    ¬ (app ℚ).Along IsolatedStep (initial [hallway] fun _ => none)
      [.appear 0, .disappear, .contentTimer 0] := by
  decide +kernel

def recordInEntrance : List (AppEvent ℚ) :=
  [.appear 0, .handleTap (some 1), .press .turnLeft,
    .gestureTimer 0 (.hit (RigidMotion.translate ![1, 0, 2])) .noQuery, .contentTimer 0, .disappear]

theorem entrance_recorded :
    ∃ c s, ((app ℚ).observe recording).run (Recorded.initial, initial [entrance] fun _ => none)
        recordInEntrance = some (c, s) ∧
      RoutesRecorded [entrance] c s ∧
      s.locations[0]?.map Location.route = some ⟨["left"], [1], [0], [2]⟩ := by
  have hsome : (((app ℚ).observe recording).run
      (Recorded.initial, initial [entrance] fun _ => none) recordInEntrance).map
        (fun p => p.2.locations[0]?.map Location.route) =
          some (some ⟨["left"], [1], [0], [2]⟩) := by
    decide +kernel
  obtain ⟨⟨c, s⟩, hrun, hroute⟩ := Option.map_eq_some_iff.1 hsome
  exact ⟨c, s, hrun, (route_isolated (by decide +kernel) hrun).2, hroute⟩

end AppState

end EyeMaps
