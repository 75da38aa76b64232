import EyeMaps.Model.App

/-!
# Directions and waypoints stay paired

A menu item appends its direction at once and raises the flag `addAudio`; the gesture timer serves
the flag up to a second later with one raycast and lowers it whatever came of the raycast.  A
direction is therefore left without a waypoint when two presses share one fire, when the raycast
fails, or when the view has no virtual-object anchor; and a request left over from an earlier map
brings a waypoint that nobody chose a direction for.

`Chosen` is the abstract recorder the two lists are compared with: a list of pairs and one pending
choice.  Within one open map, a run that starts with lists of equal length is paired when no
request is pending if and only if every press and every fire of the run is `Served`
(`directions_paired_iff`).  Sufficiency is a simulation of the recorder (`RecordsChosen`);
necessity is a count: `unpaired`, the number of entries of either list that have lost their
partner, never goes down.
-/

namespace EyeMaps

open Framework

/-- The recorder: for each waypoint the direction chosen for it, and the choice made since the
gesture timer last served a request. -/
structure Chosen (K : Type) where
  pending : Option String
  pairs : List (Option String × SIMD3 K)

/-- Nothing chosen and nothing recorded yet. -/
def Chosen.initial {K : Type} : Chosen K := ⟨none, []⟩

namespace AppState

variable {K : Type} [Field K] [LinearOrder K] {s s' s₀ : AppState K} {e : AppEvent K}
  {c : Chosen K}

/-- The observer that plays the recorder. -/
def choosing (c : Chosen K) (s : AppState K) (e : AppEvent K) (_ : AppState K) : Chosen K :=
  match e with
  | .press item => { c with pending := some item.audio }
  | .gestureTimer v r₁ _ =>
    if s.globals.addAudio then
      { pending := none
        pairs := c.pairs ++ (s.acceptedBy v r₁).map fun w => (c.pending, w) }
    else c
  | _ => c

/-- The two lists have equal length and are, entry by entry, those of `s₀` followed by the pairs
of the recorder. -/
def Paired (s₀ : AppState K) (c : Chosen K) (s : AppState K) : Prop :=
  s.globals.directions.length = s.globals.transformations.length ∧
    s.globals.directions.map some = s₀.globals.directions.map some ++ c.pairs.map Prod.fst ∧
    s.globals.transformations = s₀.globals.transformations ++ c.pairs.map Prod.snd

instance (s₀ : AppState K) (c : Chosen K) (s : AppState K) : Decidable (Paired s₀ c s) :=
  inferInstanceAs (Decidable (_ ∧ _ ∧ _))

/-- A press finds no choice pending, and a fire appends a waypoint exactly if a choice is pending.
A request left over from before the run is pending without a choice. -/
def Served (c : Chosen K) (s : AppState K) : AppEvent K → Prop
  | .press _ => c.pending = none
  | .gestureTimer v r₁ _ => s.acceptedBy v r₁ = [] ↔ c.pending = none
  | _ => True

instance (c : Chosen K) (s : AppState K) : ∀ e, Decidable (Served c s e) := by
  rintro ⟨⟩ <;> dsimp only [Served] <;> infer_instance

/-- A pending choice has its request pending. -/
def Requested (c : Chosen K) (s : AppState K) : Prop :=
  c.pending ≠ none → s.globals.addAudio = true

/-- What an event of an open map does to the recording buffers and the recorder. -/
theorem step_buffers (hreq : Requested c s) (hstay : e.staysOpen = true)
    (hstep : (app K).step s e = some s') :
    (∃ item, e = .press item ∧ choosing c s e s' = { c with pending := some item.audio } ∧
        s'.globals.directions = s.globals.directions ++ [item.audio] ∧
        s'.globals.transformations = s.globals.transformations ∧ s'.globals.addAudio = true) ∨
      (∃ v r₁ r₂, e = .gestureTimer v r₁ r₂ ∧
        choosing c s e s' =
          ⟨none, c.pairs ++ (s.acceptedBy v r₁).map fun w => (c.pending, w)⟩ ∧
        s'.globals.directions = s.globals.directions ∧
        s'.globals.transformations = s.globals.transformations ++ s.acceptedBy v r₁ ∧
        (s.acceptedBy v r₁).length ≤ 1) ∨
      (Served c s e ∧ choosing c s e s' = c ∧
        s'.globals.directions = s.globals.directions ∧
        s'.globals.transformations = s.globals.transformations ∧
        s'.globals.addAudio = s.globals.addAudio) := by
  cases e with
  | appear k => cases hstay
  | disappear => cases hstay
  | press item =>
    obtain ⟨_, _, -, -, rfl⟩ := step_press hstep
    exact .inl ⟨item, rfl, rfl, rfl, rfl, rfl⟩
  | gestureTimer v r₁ r₂ =>
    have hle := length_acceptedBy_le s v r₁
    have hchoosing : choosing c s (.gestureTimer v r₁ r₂) s' =
        ⟨none, c.pairs ++ (s.acceptedBy v r₁).map fun w => (c.pending, w)⟩ := by
      cases haudio : s.globals.addAudio with
      | true => simp [choosing, haudio]
      | false =>
        -- without a request there is neither a choice nor a raycast
        have hnone : c.pending = none := by
          by_contra hsome
          simpa [haudio] using hreq hsome
        have hnil : s.acceptedBy v r₁ = [] := by simpa [haudio] using hle
        simp [choosing, haudio, hnil, ← hnone]
    obtain ⟨view, hview, rfl⟩ := step_gestureTimer hstep
    refine .inr (.inl ⟨v, r₁, r₂, rfl, hchoosing, by simp, ?_, ?_⟩)
    · simp [CustomARView.gestureTimer_transformations, acceptedBy, hview]
    · split at hle <;> omega
  | contentTimer v =>
    obtain ⟨_, _, -, -, rfl⟩ := step_contentTimer hstep
    exact .inr (.inr ⟨trivial, rfl, rfl, rfl, rfl⟩)
  | _ =>
    have hsame := step_quiet hstep rfl
    exact .inr (.inr ⟨trivial, rfl, hsame.directions, hsame.transformations, hsame.addAudio⟩)

theorem requested_step (hreq : Requested c s) (hstay : e.staysOpen = true)
    (hstep : (app K).step s e = some s') : Requested (choosing c s e s') s' := by
  rcases step_buffers hreq hstay hstep with
      ⟨item, -, hc, -, -, ha⟩ | ⟨v, r₁, r₂, -, hc, -, -, -⟩ | ⟨-, hc, -, -, ha⟩
  · exact fun _ => ha
  · rw [hc]
    exact fun hne => absurd rfl hne
  · rw [hc]
    exact fun hne => ha.trans (hreq hne)

/-! ## Necessity: counting the unpaired entries -/

/-- The directions that lost their waypoint and the waypoints that nobody chose a direction for,
when the lists of the run started level. -/
def unpaired (c : Chosen K) (s : AppState K) : ℤ :=
  s.globals.directions.length - s.globals.transformations.length - c.pending.toList.length +
    2 * (c.pairs.map Prod.fst).count none

/-- A step leaves the count as it is when it is served and increases it when it is not. -/
theorem unpaired_step (hreq : Requested c s) (hstay : e.staysOpen = true)
    (hstep : (app K).step s e = some s') :
    (Served c s e → unpaired (choosing c s e s') s' = unpaired c s) ∧
      (¬ Served c s e → unpaired c s < unpaired (choosing c s e s') s') := by
  rcases step_buffers hreq hstay hstep with
      ⟨item, rfl, hc, hd, ht, -⟩ | ⟨v, r₁, r₂, rfl, hc, hd, ht, hle⟩ | ⟨hserved, hc, hd, ht, -⟩
  · rw [hc]
    cases hpending : c.pending with
    | none =>
      simp [unpaired, Served, hd, ht, hpending]
      omega
    | some d => simp [unpaired, Served, hd, ht, hpending]
  · rw [hc]
    obtain hnil | ⟨w, hw⟩ : s.acceptedBy v r₁ = [] ∨ ∃ w, s.acceptedBy v r₁ = [w] := by
      rw [← List.length_eq_one_iff, ← List.length_eq_zero_iff]
      omega
    · cases hpending : c.pending <;> simp [unpaired, Served, hd, ht, hpending, hnil]
    · cases hpending : c.pending <;> simp [unpaired, Served, hd, ht, hpending, hw] <;> omega
  · simp [hc, hserved, unpaired, hd, ht]

omit [LinearOrder K] in
/-- Paired lists leave nothing unpaired. -/
theorem Paired.unpaired_eq_zero (h : Paired s₀ c s) (hreq : Requested c s)
    (hrest : s.globals.addAudio = false) : unpaired c s = 0 := by
  obtain ⟨hlen, hd, -⟩ := h
  have hpending : c.pending = none := by
    by_contra hsome
    simpa [hrest] using hreq hsome
  have hcount : (c.pairs.map Prod.fst).count none = 0 := by
    rw [List.count_eq_zero]
    intro hmem
    have hnone : none ∈ s.globals.directions.map some := by
      rw [hd]
      exact List.mem_append_right _ hmem
    simp at hnone
  simp [unpaired, hlen, hpending, hcount]

/-! ## Sufficiency: the lists follow the recorder -/

/-- The lists are those of `s₀` followed by the pairs of the recorder and by the pending choice. -/
structure RecordsChosen (s₀ : AppState K) (c : Chosen K) (s : AppState K) : Prop where
  requested : Requested c s
  directions : s.globals.directions.map some =
    s₀.globals.directions.map some ++ c.pairs.map Prod.fst ++ c.pending.toList.map some
  transformations : s.globals.transformations =
    s₀.globals.transformations ++ c.pairs.map Prod.snd

theorem recordsChosen_step (h : RecordsChosen s₀ c s) (hserved : Served c s e)
    (hstay : e.staysOpen = true) (hstep : (app K).step s e = some s') :
    RecordsChosen s₀ (choosing c s e s') s' := by
  refine ⟨requested_step h.requested hstay hstep, ?_, ?_⟩ <;>
    obtain ⟨item, rfl, hc, hd, ht, -⟩ | ⟨v, r₁, r₂, rfl, hc, hd, ht, hle⟩ | ⟨-, hc, hd, ht, -⟩ :=
      step_buffers h.requested hstay hstep <;>
    rw [hc]
  · have hpending : c.pending = none := hserved
    simp [hd, h.directions, hpending]
  · have hiff : s.acceptedBy v r₁ = [] ↔ c.pending = none := hserved
    cases hpending : c.pending with
    | none => simp [hd, h.directions, hpending, hiff.2 hpending]
    | some d =>
      obtain ⟨w, hw⟩ : ∃ w, s.acceptedBy v r₁ = [w] := by
        have hne : s.acceptedBy v r₁ ≠ [] := by simp [hiff, hpending]
        rw [← List.length_eq_one_iff]
        have := List.length_pos_of_ne_nil hne
        omega
      simp [hd, h.directions, hpending, hw]
  · rw [hd, h.directions]
  · simp [ht, h.transformations]
  · simp [ht, h.transformations, Function.comp_def]
  · rw [ht, h.transformations]

/-! ## The result -/

/-- Within one open map, from lists of equal length: when no request is pending, the lists are
paired with the choices exactly if every step was served. -/
theorem directions_paired_iff {es : List (AppEvent K)}
    (hlen : s₀.globals.directions.length = s₀.globals.transformations.length)
    (hstay : ∀ e ∈ es, e.staysOpen = true)
    (hrun : ((app K).observe choosing).run (Chosen.initial, s₀) es = some (c, s))
    (hrest : s.globals.addAudio = false) :
    Paired s₀ c s ↔
      ((app K).observe choosing).Meets (fun p e => Served p.1 p.2 e) (Chosen.initial, s₀) es := by
  have hreq₀ : Requested Chosen.initial s₀ := fun hne => absurd rfl hne
  constructor
  · intro hpaired
    have hstep : ∀ p e p', Requested p.1 p.2 → e.staysOpen = true →
        ((app K).observe choosing).step p e = some p' →
        Requested p'.1 p'.2 ∧ (Served p.1 p.2 e → unpaired p'.1 p'.2 = unpaired p.1 p.2) ∧
          (¬ Served p.1 p.2 e → unpaired p.1 p.2 < unpaired p'.1 p'.2) := by
      intro p e p' hreq hstay hstep
      obtain ⟨happ, hc⟩ := Machine.observe_step_eq_some.1 hstep
      rw [hc]
      exact ⟨requested_step hreq hstay happ, unpaired_step hreq hstay happ⟩
    refine (Machine.meets_iff_of_count hstep hreq₀ hstay hrun).2.2 ?_
    have hreq : Requested c s :=
      Machine.invariant_of_observed (C := fun _ _ e => e.staysOpen = true)
        (fun _ _ _ _ => requested_step) hreq₀ (Machine.meets_of_forall_mem hstay) hrun
    rw [hpaired.unpaired_eq_zero hreq hrest]
    simp [unpaired, Chosen.initial, hlen]
  · intro hmeets
    have hinit : RecordsChosen s₀ Chosen.initial s₀ :=
      ⟨hreq₀, by simp [Chosen.initial], by simp [Chosen.initial]⟩
    obtain ⟨hreq, hd, ht⟩ : RecordsChosen s₀ c s :=
      Machine.invariant_of_observed (P := RecordsChosen s₀)
        (C := fun c s e => Served c s e ∧ e.staysOpen = true)
        (fun _ _ _ _ h hcond => recordsChosen_step h hcond.1 hcond.2) hinit
        (hmeets.and (Machine.meets_of_forall_mem hstay)) hrun
    have hpending : c.pending = none := by
      by_contra hsome
      simpa [hrest] using hreq hsome
    simp only [hpending, Option.toList_none, List.map_nil, List.append_nil] at hd
    refine ⟨?_, hd, ht⟩
    have hcount := congrArg List.length hd
    simp only [List.length_map, List.length_append] at hcount
    simp [ht, hcount, hlen]

/-! ### A failed raycast

The entrance is opened and its anchor placed by a tap.  In the first recording the raycast for the
only direction has no result; in the second it hits. -/

/-- The entrance on the screen, with a virtual-object anchor at the origin. -/
def entranceOpened : AppState ℚ :=
  { initial [entrance] fun _ => none with
    views :=
      [{ binding := 0
         timerBinding := 0
         worldMapData := some []
         showInitial := true
         arView := (CustomARView.create entrance).addVirtualObjectAnchor 1 }]
    opened := some 0 }

def pressWithoutHit : List (AppEvent ℚ) := [.press .turnLeft, .gestureTimer 0 .noResult .noQuery]

def pressWithHit : List (AppEvent ℚ) :=
  [.press .turnLeft, .gestureTimer 0 (.hit (RigidMotion.translate ![1, 0, 2])) .noQuery]

theorem direction_unpaired :
    ¬ ∀ p ∈ ((app ℚ).observe choosing).run (Chosen.initial, entranceOpened) pressWithoutHit,
      p.2.globals.addAudio = false → Paired entranceOpened p.1 p.2 := by
  decide +kernel

theorem direction_paired :
    ∃ c s, ((app ℚ).observe choosing).run (Chosen.initial, entranceOpened) pressWithHit =
        some (c, s) ∧
      Paired entranceOpened c s ∧ c.pairs = [(some "left", ![1, 0, 2])] := by
  have hsome : (((app ℚ).observe choosing).run (Chosen.initial, entranceOpened) pressWithHit).map
      (fun p => (p.2.globals.addAudio, p.1.pairs)) =
        some (false, [(some "left", ![1, 0, 2])]) := by
    decide +kernel
  obtain ⟨⟨c, s⟩, hrun, hend⟩ := Option.map_eq_some_iff.1 hsome
  obtain ⟨hrest, hpairs⟩ := Prod.mk.inj hend
  exact ⟨c, s, hrun,
    (directions_paired_iff rfl (by decide) hrun hrest).2 (by decide +kernel), hpairs⟩

end AppState

end EyeMaps
