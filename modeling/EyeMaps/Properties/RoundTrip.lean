import EyeMaps.Model.App

/-!
# Unpacking and repacking a route

Opening a map unpacks the three coordinate arrays of its location into the waypoint buffer, and
each fire of its 0.1 s timer packs the buffer into the arrays again.  From an empty buffer the two
are inverse: any number of fires leaves the route as it was, and a fire followed by closing and
reopening the map leaves the buffers as they were.
-/

namespace EyeMaps

open Framework

/-- Packing the buffers into the location they were unpacked from changes nothing of its route. -/
theorem ContentView.route_timer_of_unpacked {K : Type} {g : Globals K} {l : Location K}
    (hl : l.Balanced) (hdirections : g.directions = l.directions)
    (htransformations : g.transformations = l.waypoints) (worldMapData : Option Data) :
    (ContentView.timer g worldMapData l).route = l.route := by
  rw [ContentView.timer_route, hdirections, htransformations, Location.map_x_waypoints hl,
    Location.map_y_waypoints hl, Location.map_z_waypoints hl]
  rfl

namespace AppState

variable {K : Type} [Field K] [LinearOrder K] {s : AppState K}

/-- The buffers hold the route of entry `k`, to which the timer of map `v` is bound. -/
structure Unpacked (v k : ℕ) (s : AppState K) : Prop where
  bound : ∃ view, s.views[v]? = some view ∧ view.timerBinding = k
  held : ∃ l, s.locations[k]? = some l ∧ l.Balanced ∧ s.globals.directions = l.directions ∧
    s.globals.transformations = l.waypoints

/-- Opening a map from an empty waypoint buffer unpacks its route. -/
theorem exists_step_appear {k : ℕ} {l : Location K} (hclosed : s.opened = none)
    (hl : s.locations[k]? = some l) (hbalanced : l.Balanced) :
    ∃ s', (app K).step s (.appear k) = some s' ∧ s'.locations = s.locations ∧
      s'.globals.directions = l.directions ∧
      s'.globals.transformations = s.globals.transformations ++ l.waypoints ∧
      ∃ view, s'.views[s.views.length]? = some view ∧ view.timerBinding = k := by
  have hstep : ((app K).step s (.appear k)).isSome = true := by
    simp [app, next, appear, hclosed, hl, ContentView.onAppear_eq_some hbalanced]
  obtain ⟨s', hs'⟩ := Option.isSome_iff_exists.1 hstep
  obtain ⟨l', globals, view, _, -, hl', hglobals, hview, rfl⟩ := step_appear hs'
  obtain rfl : l = l' := Option.some.inj (hl.symm.trans hl')
  rw [ContentView.onAppear_eq_some hbalanced] at hglobals
  obtain rfl := Option.some.inj hglobals
  exact ⟨_, hs', rfl, rfl, rfl, view, by simp, by rw [hview]⟩

/-- A fire of the timer finds the route it would write. -/
theorem Unpacked.contentTimer {v k : ℕ} (h : s.Unpacked v k) :
    ∃ s', (app K).step s (.contentTimer v) = some s' ∧ s'.Unpacked v k ∧
      s'.locations.map Location.route = s.locations.map Location.route := by
  obtain ⟨⟨view, hview, rfl⟩, l, hl, hbalanced, hdirections, htransformations⟩ := h
  have hroute :=
    ContentView.route_timer_of_unpacked hbalanced hdirections htransformations view.worldMapData
  refine ⟨_, by simp [app, next, AppState.contentTimer, hview, hl]; rfl, ⟨?_, ?_⟩, ?_⟩
  · exact ⟨_, getElem?_set_self' hview, rfl⟩
  · refine ⟨_, getElem?_set_self' hl, ContentView.balanced_timer _ _ _, ?_, ?_⟩
    · simp [ContentView.timer_eq]
    · rw [ContentView.waypoints_timer]
  · exact map_set_eq_map hl hroute

theorem Unpacked.contentTimers {v k : ℕ} (n : ℕ) (h : s.Unpacked v k) :
    ∃ s', (app K).run s (List.replicate n (.contentTimer v)) = some s' ∧
      s'.locations.map Location.route = s.locations.map Location.route := by
  induction n generalizing s with
  | zero => exact ⟨s, rfl, rfl⟩
  | succ n ih =>
    obtain ⟨s₁, hstep, h₁, hroutes₁⟩ := h.contentTimer
    obtain ⟨s', hrun, hroutes⟩ := ih h₁
    refine ⟨s', ?_, hroutes.trans hroutes₁⟩
    rw [List.replicate_succ, Machine.run_cons, hstep]
    exact hrun

/-- A fire of the open map's timer, then closing and reopening its location. -/
theorem reopen_after_timer {v : ℕ} {view : MapView K} {l : Location K} (hv : s.opened = some v)
    (hview : s.views[v]? = some view) (hl : s.locations[view.timerBinding]? = some l) :
    ∃ s', (app K).run s [.contentTimer v, .disappear, .appear view.timerBinding] = some s' ∧
      s'.globals.directions = s.globals.directions ∧
      s'.globals.transformations = s.globals.transformations := by
  let packed := ContentView.timer s.globals view.worldMapData l
  let s₁ : AppState K :=
    { s with
      locations := s.locations.set view.timerBinding packed
      views := s.views.set v { view with showInitial := !s.globals.placed } }
  have hfire : (app K).step s (.contentTimer v) = some s₁ := by
    simp [app, next, AppState.contentTimer, hview, hl, s₁, packed]
  have hopen₁ : s₁.opened = some v := hv
  have hview₁ : s₁.views[v]? = some { view with showInitial := !s.globals.placed } :=
    getElem?_set_self' hview
  obtain ⟨s₂, hclose⟩ : ∃ s₂, (app K).step s₁ .disappear = some s₂ := by
    simp [app, next, AppState.disappear, hopen₁, hview₁]
  obtain ⟨_, _, _, -, -, hs₂⟩ := step_disappear hclose
  have hclosed : s₂.opened = none := by rw [hs₂]
  have hempty : s₂.globals.transformations = [] := by rw [hs₂]; rfl
  have hl₂ : s₂.locations[view.timerBinding]? = some packed := by
    rw [hs₂]
    exact getElem?_set_self' hl
  obtain ⟨s', hreopen, -, hdirections, htransformations, -⟩ :=
    exists_step_appear hclosed hl₂ (ContentView.balanced_timer _ _ _)
  refine ⟨s', by simp [hfire, hclose, hreopen], ?_, ?_⟩
  · rw [hdirections]
    simp [packed, ContentView.timer_eq]
  · rw [htransformations, hempty, List.nil_append]
    exact ContentView.waypoints_timer _ _ _

/-- Opening a balanced location from an empty waypoint buffer and letting its timer fire any number
of times leaves every route as it was; and whatever the buffers hold, a fire followed by closing
and reopening the location brings it back. -/
theorem unpacking_inverts_packing :
    (∀ (s : AppState K) (k : ℕ) (l : Location K) (n : ℕ), s.opened = none →
        s.globals.transformations = [] → s.locations[k]? = some l → l.Balanced →
        ∃ s', (app K).run s (.appear k :: List.replicate n (.contentTimer s.views.length)) =
            some s' ∧
          s'.locations.map Location.route = s.locations.map Location.route) ∧
      ∀ (s : AppState K) (v : ℕ) (view : MapView K) (l : Location K), s.opened = some v →
        s.views[v]? = some view → s.locations[view.timerBinding]? = some l →
        ∃ s', (app K).run s [.contentTimer v, .disappear, .appear view.timerBinding] = some s' ∧
          s'.globals.directions = s.globals.directions ∧
          s'.globals.transformations = s.globals.transformations := by
  constructor
  · intro s k l n hclosed hempty hl hbalanced
    obtain ⟨s₁, hopen, hlocations, hdirections, htransformations, hbound⟩ :=
      exists_step_appear hclosed hl hbalanced
    have hunpacked : s₁.Unpacked s.views.length k :=
      ⟨hbound, l, by rw [hlocations, hl], hbalanced, hdirections,
        by rw [htransformations, hempty, List.nil_append]⟩
    obtain ⟨s', hrun, hroutes⟩ := hunpacked.contentTimers n
    refine ⟨s', ?_, hroutes.trans (by rw [hlocations])⟩
    rw [Machine.run_cons, hopen]
    exact hrun
  · intro s v view l hv hview hl
    exact reopen_after_timer hv hview hl

/-- The hallway after three ticks, and its waypoints after it has been closed and reopened. -/
theorem hallway_unpacked_and_repacked :
    (∃ s', (app ℚ).run (initial [hallway] fun _ => none)
        (.appear 0 :: List.replicate 3 (.contentTimer 0)) = some s' ∧
      s'.locations.map Location.route = [hallway.route]) ∧
    ∃ s s', (app ℚ).run (initial [hallway] fun _ => none) [.appear 0] = some s ∧
      (app ℚ).run s [.contentTimer 0, .disappear, .appear 0] = some s' ∧
      s'.globals.transformations = s.globals.transformations ∧
      s.globals.transformations = hallway.waypoints := by
  obtain ⟨hticks, hreopen⟩ := unpacking_inverts_packing (K := ℚ)
  refine ⟨hticks _ 0 hallway 3 rfl rfl rfl (by decide), ?_⟩
  obtain ⟨s, hrun, hopened, view, hview, hbinding, hl, hwaypoints⟩ :
      ∃ s, (app ℚ).run (initial [hallway] fun _ => none) [.appear 0] = some s ∧
        s.opened = some 0 ∧ ∃ view, s.views[0]? = some view ∧ view.timerBinding = 0 ∧
          s.locations[0]? = some hallway ∧ s.globals.transformations = hallway.waypoints :=
    ⟨_, rfl, rfl, _, rfl, rfl, rfl, rfl⟩
  obtain ⟨s', hrun', -, hkept⟩ := hreopen s 0 view hallway hopened hview (hbinding ▸ hl)
  exact ⟨s, s', hrun, hbinding ▸ hrun', hkept, hwaypoints⟩

end AppState

end EyeMaps
