import EyeMaps.Properties.Durability

/-!
# Maps that reach other devices

What one device publishes arrives on any other as it was, among whatever else is delivered with it
(`published_map_arrives`).  The one thing in the way is a document over which the decoder stops the
program: a fetch completes if and only if none is delivered (`deliver_isSome_iff`).  No device ever
writes such a document, so that the devices alone never stop one another (`fetch_never_stopped`).
-/

namespace EyeMaps

open Framework

variable {K : Type} [Field K] [LinearOrder K] {runtime : Runtime K}

/-! ## Fetches that complete -/

/-- Decoding ends with an outcome unless the document is a trap. -/
theorem DocumentSnapshot.exists_result_iff {d : DocumentSnapshot K} :
    (∃ result, d.result runtime = some result) ↔ ¬ IsTrap runtime d.data := by
  rw [← decode_eq_trap_iff]
  unfold result
  split
  next user huser =>
    rw [huser]
    exact ⟨fun _ => nofun, fun _ => ⟨_, rfl⟩⟩
  next error herror =>
    rw [herror]
    exact ⟨fun _ => nofun, fun _ => ⟨_, rfl⟩⟩
  next htrap =>
    rw [htrap]
    exact ⟨nofun, fun h => absurd rfl h⟩

namespace Catalogue

variable {s s' : Catalogue K} {documents : List (DocumentSnapshot K)}

theorem receive_isSome_iff :
    (∃ s', s.receive runtime documents = some s') ↔
      0 < s.requests ∧ ∀ d ∈ documents, ¬ IsTrap runtime d.data := by
  constructor
  · rintro ⟨s', h⟩
    obtain ⟨results, hresults, hrequests, -⟩ := receive_eq_some h
    refine ⟨hrequests, fun d hd => ?_⟩
    exact DocumentSnapshot.exists_result_iff.1 (exists_mapM_eq_some_iff.1 ⟨results, hresults⟩ d hd)
  · rintro ⟨hrequests, htraps⟩
    obtain ⟨results, hresults⟩ := exists_mapM_eq_some_iff.2 fun d hd =>
      DocumentSnapshot.exists_result_iff.2 (htraps d hd)
    rw [receive, hresults, Option.bind_eq_bind, Option.bind_some]
    exact ⟨_, if_pos hrequests⟩

end Catalogue

section Fleet

variable {ι : Type} [DecidableEq ι] {s s' : Network ι (Catalogue K) (DocumentSnapshot K)}

theorem deliver_isSome_iff {i : ι} {picks : List ℕ} :
    (∃ s', (fleet runtime ι).step s (.deliver i picks) = some s') ↔
      0 < (s.nodes i).requests ∧ ∀ d ∈ Network.pick s.log picks, ¬ IsTrap runtime d.data := by
  rw [← Catalogue.receive_isSome_iff]
  constructor
  · rintro ⟨s', h⟩
    obtain ⟨t, ht, -⟩ := Node.step_deliver h
    exact ⟨t, ht⟩
  · rintro ⟨t, ht⟩
    exact ⟨_, Option.map_eq_some_iff.2 ⟨t, ht, rfl⟩⟩

end Fleet

/-! ## Devices write no traps -/

/-- The place of a document that a device writes is a geopoint. -/
theorem not_isTrap_entriesOf (l : Location K) : ¬ IsTrap runtime (EncodableType.entriesOf l) := by
  rintro ⟨-, o, ho, entries, _, _, hentries, -⟩
  have hlocation : (EncodableType.entriesOf l).lookup "location" =
      some (.leaf (.geoPoint l.location)) := rfl
  rw [hlocation] at ho
  cases ho
  cases hentries

theorem keeps_sound (runtime : Runtime K) (ι : Type) :
    (device runtime).Keeps (fun (_ : ι) _ _ => True) (fun _ => True) (fun _ _ => True)
      fun d => ¬ IsTrap runtime d.data where
  act := by
    rintro - s e s' documents - - hact
    refine ⟨trivial, fun d hd => ?_⟩
    obtain ⟨-, -, ⟨-, rfl⟩ | ⟨key, l, -, -, rfl⟩⟩ := Catalogue.act_eq_some hact
    · cases hd
    · rw [List.mem_singleton.1 hd]
      exact not_isTrap_entriesOf l
  receive := fun _ _ _ _ _ _ _ => trivial
  restart := fun _ _ _ _ => trivial

section Fleet

variable {ι : Type} [DecidableEq ι]

/-- Where no trap is in the collection at the start and none is written from outside, every fetch
that is pending can complete, with any delivery, at any time of a run. -/
theorem fetch_never_stopped {s s' : Network ι (Catalogue K) (DocumentSnapshot K)}
    {es : List (Network.Event ι (CatalogueEvent K) (DocumentSnapshot K))}
    (hlog : ∀ d ∈ s.log, ¬ IsTrap runtime d.data)
    (hes : ∀ d, .inject d ∈ es → ¬ IsTrap runtime d.data)
    (hrun : (fleet runtime ι).run s es = some s') (i : ι) (hpending : 0 < (s'.nodes i).requests)
    (picks : List ℕ) : ∃ t, (fleet runtime ι).step s' (.deliver i picks) = some t := by
  have hadmits : (fleet runtime ι).Meets (Node.Admits (fun _ _ _ => True) (fun _ => True)
      fun d => ¬ IsTrap runtime d.data) s es := by
    refine Machine.meets_of_forall_split fun pre e post _ hsplit _ => ?_
    cases e with
    | inject d => exact hes d (by rw [hsplit]; simp)
    | _ => trivial
  have hkept := (keeps_sound runtime ι).run (fun _ => trivial) hlog hadmits hrun
  exact deliver_isSome_iff.2
    ⟨hpending, fun d hd => hkept.2 d (Network.mem_of_mem_pick hd)⟩

/-- The other device fetches what the first has written so far. -/
theorem fetch_never_stopped_shared :
    ∃ s', (fleet .exact Bool).run launched shared.dropLast = some s' ∧
      ∃ t, (fleet .exact Bool).step s' (.deliver true [0]) = some t := by
  have hsome : ((fleet .exact Bool).run launched shared.dropLast).map
      (fun s' => decide (0 < (s'.nodes true).requests)) = some true := by
    decide +kernel
  obtain ⟨s', hrun, hpending⟩ := Option.map_eq_some_iff.1 hsome
  refine ⟨s', hrun,
    fetch_never_stopped (fun d hd => by cases hd) ?_ hrun true (by simpa using hpending) [0]⟩
  simp [shared, begun]

/-! ## What is published arrives -/

omit [DecidableEq ι] in
/-- The list of device `j` keeps the card `c`, unless it is loaded from the file. -/
theorem keeps_listed (runtime : Runtime K) (j : ι) (c : Card K) :
    (device runtime).Keeps (fun i _ e => i = j → e ≠ .selectAppear) (fun i => i ≠ j)
      (fun i s => i = j → c ∈ s.listed) fun _ => True where
  act := by
    intro i s e s' documents hs he hact
    obtain ⟨-, hstep, -⟩ := Catalogue.act_eq_some hact
    exact ⟨fun hi => Catalogue.listed_subset_of_step (he hi) hstep (hs hi), fun _ _ => trivial⟩
  receive := by
    rintro i s documents s' hs - hreceive hi
    obtain ⟨l, hl, hcard⟩ := List.mem_map.1 (hs hi)
    have hl' : l ∈ s'.appState.locations := (Catalogue.mem_receive hreceive).2 (.inl hl)
    rw [← hcard]
    exact List.mem_map_of_mem hl'
  restart := fun i s hi _ h => absurd h hi

/-- A device publishes a location, anything happens, and a delivery on device `j` includes the
document.  Then the location is on the list of `j`, and its card stays there through anything but a
reload of the list from the file. -/
theorem published_map_arrives {i j : ι} {e : CatalogueEvent K} {key : UUID} {l : Location K}
    {picks : List ℕ} {s s₁ s₂ s₃ s₄ : Network ι (Catalogue K) (DocumentSnapshot K)}
    {es es' : List (Network.Event ι (CatalogueEvent K) (DocumentSnapshot K))}
    (hpublish : (fleet runtime ι).step s (.act i e) = some s₁)
    (hpublished : (s₁.nodes i).appState.documents = (s.nodes i).appState.documents ++ [(key, l)])
    (hfloat : l.IsFloat runtime) (hrun : (fleet runtime ι).run s₁ es = some s₂)
    (hdeliver : (fleet runtime ι).step s₂ (.deliver j picks) = some s₃)
    (hpick : s.log.length ∈ picks) (hrun' : (fleet runtime ι).run s₃ es' = some s₄)
    (hes' : ∀ e ∈ es', e ≠ .act j .selectAppear ∧ e ≠ .restart j) :
    l ∈ (s₃.nodes j).appState.locations ∧ l.card ∈ (s₄.nodes j).listed := by
  -- the document is in the log, behind what was written before
  have hlog : s₁.log = s.log ++ [⟨key.uuidString, EncodableType.entriesOf l⟩] := by
    obtain ⟨t, documents, hact, rfl⟩ := Node.step_act hpublish
    simp only [Function.update_self] at hpublished
    obtain ⟨-, -, ⟨hsame, -⟩ | ⟨key', l', -, hpublished', rfl⟩⟩ := Catalogue.act_eq_some hact
    · rw [hsame] at hpublished
      simp at hpublished
    · rw [hpublished'] at hpublished
      obtain ⟨rfl, rfl⟩ : key' = key ∧ l' = l := by simpa using hpublished
      rfl
  have hposition : s₂.log[s.log.length]? = some ⟨key.uuidString, EncodableType.entriesOf l⟩ := by
    obtain ⟨rest, hrest⟩ := Node.prefix_log_run hrun
    rw [← hrest, hlog]
    simp
  have harrives : l ∈ (s₃.nodes j).appState.locations := by
    obtain ⟨t, hreceive, rfl⟩ := Node.step_deliver hdeliver
    simp only [Function.update_self]
    exact (Catalogue.mem_receive hreceive).2
      (.inr ⟨_, Network.mem_pick hpick hposition, isDocumentOf_entriesOf_self runtime hfloat⟩)
  have hadmits : (fleet runtime ι).Meets (Node.Admits (fun i _ e => i = j → e ≠ .selectAppear)
      (fun i => i ≠ j) fun _ => True) s₃ es' := by
    refine Machine.meets_of_forall_split fun pre e post _ hsplit _ => ?_
    obtain ⟨hload, hrestart⟩ := hes' e (by rw [hsplit]; simp)
    cases e with
    | act i e =>
      rintro rfl rfl
      exact hload rfl
    | restart i =>
      rintro rfl
      exact hrestart rfl
    | _ => trivial
  have hkept := (keeps_listed runtime j l.card).run (fun i hi => hi ▸ List.mem_map_of_mem harrives)
    (fun _ _ => trivial) hadmits hrun'
  exact ⟨harrives, hkept.1 j rfl⟩

/-- The map as it is published and fetched. -/
def sharedMap : Location ℚ := (AddView.create 7).begun 1 1

/-- The map is on the list of the other device, and stays there when the first is killed. -/
theorem published_map_arrives_shared :
    ∃ s s₁ s₂ s₃ s₄, (fleet .exact Bool).run launched begun = some s ∧
      (fleet .exact Bool).step s (.act false .dismiss) = some s₁ ∧
      (fleet .exact Bool).run s₁ [.act true .selectAppear] = some s₂ ∧
      (fleet .exact Bool).step s₂ (.deliver true [0]) = some s₃ ∧
      (fleet .exact Bool).run s₃ [.restart false] = some s₄ ∧
      sharedMap ∈ (s₃.nodes true).appState.locations ∧
        sharedMap.card ∈ (s₄.nodes true).listed := by
  have hsome : ((fleet .exact Bool).run launched begun).bind (fun s =>
      ((fleet .exact Bool).step s (.act false .dismiss)).bind fun s₁ =>
        ((fleet .exact Bool).run s₁ [.act true .selectAppear]).bind fun s₂ =>
          ((fleet .exact Bool).step s₂ (.deliver true [0])).bind fun s₃ =>
            ((fleet .exact Bool).run s₃ [.restart false]).map fun _ =>
              decide (s.log.length = 0 ∧ (s₁.nodes false).appState.documents =
                (s.nodes false).appState.documents ++ [(7, sharedMap)])) = some true := by
    decide +kernel
  obtain ⟨s, hbegun, hsome⟩ := Option.bind_eq_some_iff.1 hsome
  obtain ⟨s₁, hpublish, hsome⟩ := Option.bind_eq_some_iff.1 hsome
  obtain ⟨s₂, hrun, hsome⟩ := Option.bind_eq_some_iff.1 hsome
  obtain ⟨s₃, hdeliver, hsome⟩ := Option.bind_eq_some_iff.1 hsome
  obtain ⟨s₄, hrun', hsome⟩ := Option.map_eq_some_iff.1 hsome
  obtain ⟨hlog, hpublished⟩ := of_decide_eq_true hsome
  have hfloat : sharedMap.IsFloat .exact :=
    ⟨fun x hx => absurd hx List.not_mem_nil, fun x hx => absurd hx List.not_mem_nil⟩
  exact ⟨s, s₁, s₂, s₃, s₄, hbegun, hpublish, hrun, hdeliver, hrun',
    published_map_arrives hpublish hpublished hfloat hrun hdeliver (by simp [hlog]) hrun' (by simp)⟩

end Fleet

end EyeMaps
