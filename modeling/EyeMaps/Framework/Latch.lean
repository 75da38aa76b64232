import EyeMaps.Framework.Machine
import Mathlib.Algebra.BigOperators.Group.List.Basic
import Mathlib.Algebra.GroupWithZero.Nat
import Mathlib.Data.List.Basic

/-!
# A flag that a request raises and a poll serves

A latch is a Boolean flag: a request raises it, and a poll that finds it raised makes one call.
`latch deferred` is the machine of such a flag in its two common designs.  With `deferred` false
the poll that serves the flag also lowers it.  With `deferred` true it leaves the flag up and
schedules a clear, which comes at some later point.

`Requests` records what became of each request.  The question is when `EachOnce` holds: every
request made exactly one call.  A run in which requests come only after the one before was served
(`RaisedAfterServed`) and which ends with a poll after the last request has an exact answer: it
must be `InTime`, that is, no poll finds the flag still up from a request that an earlier poll has
seen, and no clear comes between a request and the next poll (`eachOnce_iff_inTime`).  Without
deferral every run is in time (`inTime_of_immediate`).

A machine that goes through the steps of a latch, and takes others, inherits both
(`eachOnce_iff_of_projects`, `eachOnce_of_projects`).
-/

namespace Framework

/-- What became of the requests so far. -/
structure Requests where
  /-- how many calls each request made, latest request first -/
  served : List ℕ := []
  /-- no poll has come since the latest request -/
  fresh : Bool := false
  deriving DecidableEq

namespace Requests

/-- A new request. -/
def request (r : Requests) : Requests where
  served := 0 :: r.served
  fresh := true

/-- A poll that makes `n` calls, on account of the latest request. -/
def poll (n : ℕ) (r : Requests) : Requests where
  served := r.served.modifyHead (· + n)
  fresh := false

/-- The latest request has made no call. -/
def Unserved (r : Requests) : Prop := r.served.head? = some 0

/-- Every request made exactly one call, and these are all the calls. -/
def EachOnce (r : Requests) (calls : ℕ) : Prop :=
  (∀ n ∈ r.served, n = 1) ∧ calls = r.served.length

instance (r : Requests) : Decidable r.Unserved :=
  inferInstanceAs (Decidable (_ = _))

instance (r : Requests) (calls : ℕ) : Decidable (r.EachOnce calls) :=
  inferInstanceAs (Decidable (_ ∧ _))

@[simp] theorem fresh_request (r : Requests) : r.request.fresh = true := rfl

@[simp] theorem served_request (r : Requests) : r.request.served = 0 :: r.served := rfl

@[simp] theorem fresh_poll (n : ℕ) (r : Requests) : (r.poll n).fresh = false := rfl

@[simp] theorem served_poll (n : ℕ) (r : Requests) :
    (r.poll n).served = r.served.modifyHead (· + n) := rfl

theorem served_poll_zero (r : Requests) : (r.poll 0).served = r.served := by
  cases hserved : r.served <;> simp [hserved]

theorem sum_served_poll {r : Requests} {n : ℕ} (h : n = 0 ∨ r.served ≠ []) :
    (r.poll n).served.sum = r.served.sum + n := by
  cases hserved : r.served with
  | nil =>
    have hn : n = 0 := h.resolve_right (absurd hserved)
    simp [hserved, hn]
  | cons m ms =>
    simp [hserved]
    omega

theorem eachOnce_of_sum {r : Requests} {calls : ℕ} (hsum : calls = r.served.sum)
    (hones : ∀ n ∈ r.served, n = 1) : r.EachOnce calls := by
  refine ⟨hones, ?_⟩
  rw [hsum, List.eq_replicate_of_mem hones]
  simp

end Requests

structure Latch where
  raised : Bool := false
  /-- the clears that are still to come -/
  clears : ℕ := 0
  calls : ℕ := 0
  requests : Requests := {}

inductive LatchEvent
  | raise
  | poll
  | clear
  deriving DecidableEq

namespace Latch

/-- The poll that finds the flag up. -/
def serve (deferred : Bool) (l : Latch) : Latch where
  raised := deferred
  clears := if deferred then l.clears + 1 else l.clears
  calls := l.calls + 1
  requests := l.requests.poll 1

def step (deferred : Bool) (l : Latch) : LatchEvent → Option Latch
  | .raise => some { l with raised := true, requests := l.requests.request }
  | .poll =>
    if l.raised then some (l.serve deferred) else some { l with requests := l.requests.poll 0 }
  | .clear =>
    if 0 < l.clears then some { l with raised := false, clears := l.clears - 1 } else none

end Latch

/-- The machine of a latch whose flag is lowered by the poll that serves it, or by a clear
scheduled there. -/
def latch (deferred : Bool) : Machine Latch LatchEvent where
  step := Latch.step deferred

namespace Latch

variable {deferred : Bool} {l l' : Latch} {e : LatchEvent}

/-- A request comes only after the one before has been served. -/
def RaisedAfterServed (l : Latch) (e : LatchEvent) : Prop := e = .raise → ¬ l.requests.Unserved

/-- A poll finds the flag up only if it is the first since the latest request, and no clear comes
between a request and the next poll. -/
def InTime (l : Latch) : LatchEvent → Prop
  | .raise => True
  | .poll => l.raised = true → l.requests.fresh = true
  | .clear => l.requests.fresh = false

/-! ## Steps -/

theorem step_raise (h : (latch deferred).step l .raise = some l') :
    l' = { l with raised := true, requests := l.requests.request } :=
  (Option.some.inj h).symm

theorem step_poll (h : (latch deferred).step l .poll = some l') :
    (l.raised = true ∧ l' = l.serve deferred) ∨
      (l.raised = false ∧ l' = { l with requests := l.requests.poll 0 }) := by
  simp only [latch, step] at h
  split at h
  case isTrue hraised => exact .inl ⟨hraised, (Option.some.inj h).symm⟩
  case isFalse hraised => exact .inr ⟨by simpa using hraised, (Option.some.inj h).symm⟩

theorem step_clear (h : (latch deferred).step l .clear = some l') :
    0 < l.clears ∧ l' = { l with raised := false, clears := l.clears - 1 } := by
  simp only [latch, step] at h
  split at h
  case isTrue hclears => exact ⟨hclears, (Option.some.inj h).symm⟩
  case isFalse => cases h

/-- There is one entry for each request. -/
theorem length_served {es : List LatchEvent} (hrun : (latch deferred).run l es = some l') :
    l'.requests.served.length = l.requests.served.length + es.count .raise := by
  induction es generalizing l with
  | nil =>
    obtain rfl := Option.some.inj hrun
    rfl
  | cons e es ih =>
    obtain ⟨l₁, h, hrun⟩ := Option.bind_eq_some_iff.1 hrun
    rw [ih hrun]
    cases e with
    | raise =>
      obtain rfl := step_raise h
      simp only [Requests.served_request, List.length_cons, List.count_cons_self]
      omega
    | poll => rcases step_poll h with ⟨-, rfl⟩ | ⟨-, rfl⟩ <;> simp [serve]
    | clear =>
      obtain ⟨-, rfl⟩ := step_clear h
      simp

/-! ## Every call is made on account of a request -/

/-- The flag is up only after a request, and the calls are those the requests made. -/
structure Counted (l : Latch) : Prop where
  requested : l.raised = true → l.requests.served ≠ []
  calls : l.calls = l.requests.served.sum

theorem Counted.step (hl : l.Counted) (h : (latch deferred).step l e = some l') : l'.Counted := by
  cases e with
  | raise =>
    rw [step_raise h]
    exact ⟨fun _ => List.cons_ne_nil _ _, by simpa using hl.calls⟩
  | poll =>
    rcases step_poll h with ⟨hraised, rfl⟩ | ⟨hraised, rfl⟩
    · have hne : l.requests.served ≠ [] := hl.requested hraised
      refine ⟨fun _ => by simpa [serve] using hne, ?_⟩
      rw [serve, Requests.sum_served_poll (.inr hne), hl.calls]
    · refine ⟨fun hup => ?_, ?_⟩
      · rw [hraised] at hup
        cases hup
      · rw [Requests.sum_served_poll (.inl rfl), hl.calls, Nat.add_zero]
  | clear =>
    obtain ⟨-, rfl⟩ := step_clear h
    exact ⟨nofun, hl.calls⟩

/-! ## Runs in time -/

/-- Every request before the latest made one call, and so did the latest unless it is fresh; a
fresh request has the flag up. -/
structure Orderly (l : Latch) : Prop extends Counted l where
  earlier : ∀ n ∈ l.requests.served.tail, n = 1
  latest : ∀ n ∈ l.requests.served.head?, n = if l.requests.fresh then 0 else 1
  pending : l.requests.fresh = true → l.raised = true

/-- Some request made two calls, or one that made none has the flag down. -/
def Spoiled (l : Latch) : Prop :=
  (∃ n ∈ l.requests.served, 2 ≤ n) ∨ (l.requests.Unserved ∧ l.raised = false)

theorem orderly_initial : Orderly {} where
  requested := nofun
  calls := rfl
  earlier := nofun
  latest := nofun
  pending := nofun

theorem Orderly.all_ones (hl : l.Orderly) (hfresh : l.requests.fresh = false) :
    ∀ n ∈ l.requests.served, n = 1 := by
  have hearlier := hl.earlier
  have hlatest := hl.latest
  cases hserved : l.requests.served with
  | nil => simp
  | cons m ms =>
    simp only [hserved, List.tail_cons, List.head?_cons, hfresh] at hearlier hlatest
    have hm : m = 1 := hlatest m rfl
    simpa [hm] using hearlier

/-- In an orderly state the fresh requests are the unserved ones. -/
theorem Orderly.unserved_iff (hl : l.Orderly) :
    l.requests.Unserved ↔ l.requests.fresh = true := by
  constructor
  · intro hunserved
    by_contra hfresh
    have hzero : 0 = 1 := by simpa [hfresh] using hl.latest 0 hunserved
    omega
  · intro hfresh
    have hne : l.requests.served ≠ [] := hl.requested (hl.pending hfresh)
    obtain ⟨m, ms, hserved⟩ := List.exists_cons_of_ne_nil hne
    have hm : m = 0 := by simpa [hfresh] using hl.latest m (by rw [hserved]; rfl)
    rw [Requests.Unserved, hserved, hm]
    rfl

theorem Orderly.step (hl : l.Orderly) (hserved : RaisedAfterServed l e) (htime : InTime l e)
    (h : (latch deferred).step l e = some l') : l'.Orderly := by
  have hcounted : l'.Counted := hl.toCounted.step h
  cases e with
  | raise =>
    have hfresh : l.requests.fresh = false := by
      simpa [hl.unserved_iff] using hserved rfl
    have hones := hl.all_ones hfresh
    obtain rfl := step_raise h
    exact ⟨hcounted, by simpa using hones, by simp, fun _ => rfl⟩
  | poll =>
    have hearlier := hl.earlier
    rcases step_poll h with ⟨hraised, rfl⟩ | ⟨hraised, rfl⟩
    · have hfresh : l.requests.fresh = true := htime hraised
      refine ⟨hcounted, by simpa [serve] using hearlier, ?_, nofun⟩
      intro n hn
      have hlatest := hl.latest
      cases hcalls : l.requests.served with
      | nil => simp [serve, hcalls] at hn
      | cons m ms =>
        have hm : m = 0 := by simpa [hcalls, hfresh] using hlatest
        simpa [serve, hcalls, hm, eq_comm] using hn
    · have hfresh : l.requests.fresh = false := by
        by_contra hfresh
        have hup := hl.pending (by simpa using hfresh)
        rw [hraised] at hup
        cases hup
      have hlatest := hl.latest
      refine ⟨hcounted, ?_, ?_, nofun⟩
      · simpa only [Requests.served_poll_zero] using hearlier
      · intro n hn
        have hone : n = 1 := by
          simpa [hfresh] using hlatest n (by simpa only [Requests.served_poll_zero] using hn)
        simpa using hone
  | clear =>
    have hfresh : l.requests.fresh = false := htime
    obtain ⟨-, rfl⟩ := step_clear h
    exact ⟨hcounted, hl.earlier, hl.latest, fun hup => absurd hup (by simp [hfresh])⟩

/-- The first step out of time spoils the run. -/
theorem Orderly.spoiled (hl : l.Orderly) (htime : ¬ InTime l e)
    (h : (latch deferred).step l e = some l') : l'.Spoiled := by
  cases e with
  | raise => exact absurd trivial htime
  | poll =>
    obtain ⟨hraised, hfresh⟩ : l.raised = true ∧ l.requests.fresh = false := by
      simpa [InTime] using htime
    have hones := hl.all_ones hfresh
    obtain ⟨m, ms, hcalls⟩ := List.exists_cons_of_ne_nil (hl.requested hraised)
    have hm : m = 1 := hones m (by simp [hcalls])
    rcases step_poll h with ⟨-, rfl⟩ | ⟨hdown, -⟩
    · exact .inl ⟨2, by simp [serve, hcalls, hm], Nat.le_refl 2⟩
    · simp [hraised] at hdown
  | clear =>
    have hunserved : l.requests.Unserved := hl.unserved_iff.2 (by simpa [InTime] using htime)
    obtain ⟨-, rfl⟩ := step_clear h
    exact .inr ⟨hunserved, rfl⟩

theorem Spoiled.step (hl : l.Spoiled) (hserved : RaisedAfterServed l e)
    (h : (latch deferred).step l e = some l') : l'.Spoiled := by
  cases e with
  | raise =>
    obtain rfl := step_raise h
    rcases hl with ⟨n, hn, htwice⟩ | ⟨hunserved, -⟩
    · exact .inl ⟨n, List.mem_cons_of_mem _ hn, htwice⟩
    · exact absurd hunserved (hserved rfl)
  | poll =>
    rcases step_poll h with ⟨hraised, rfl⟩ | ⟨hraised, rfl⟩
    · rcases hl with ⟨n, hn, htwice⟩ | ⟨-, hdown⟩
      · cases hcalls : l.requests.served with
        | nil => simp [hcalls] at hn
        | cons m ms =>
          rcases List.mem_cons.1 (hcalls ▸ hn) with rfl | hn
          · exact .inl ⟨n + 1, by simp [serve, hcalls], by omega⟩
          · exact .inl ⟨n, by simp [serve, hcalls, hn], htwice⟩
      · simp [hraised] at hdown
    · simpa only [Spoiled, Requests.Unserved, Requests.served_poll_zero] using hl
  | clear =>
    obtain ⟨-, rfl⟩ := step_clear h
    exact hl.imp id fun hunserved => ⟨hunserved.1, rfl⟩

theorem Spoiled.not_eachOnce (hl : l.Spoiled) : ¬ l.requests.EachOnce l.calls := by
  rintro ⟨hones, -⟩
  rcases hl with ⟨n, hn, htwice⟩ | ⟨hunserved, -⟩
  · have hone : n = 1 := hones n hn
    omega
  · have hmem : 0 ∈ l.requests.served := List.mem_of_mem_head? hunserved
    have hone : 0 = 1 := hones 0 hmem
    omega

/-- After a poll there is no fresh request until the next one comes. -/
theorem fresh_of_poll {es : List LatchEvent} (hlast : .raise ∉ es)
    (hrun : (latch deferred).run l (.poll :: es) = some l') : l'.requests.fresh = false := by
  obtain ⟨l₁, hpoll, hrun⟩ := Option.bind_eq_some_iff.1 hrun
  have hstale : l₁.requests.fresh = false := by
    rcases step_poll hpoll with ⟨-, rfl⟩ | ⟨-, rfl⟩ <;> rfl
  have hlater : (latch deferred).Meets (fun _ e => e ≠ .raise) l₁ es :=
    Machine.meets_of_forall_mem fun e he hraise => hlast (hraise ▸ he)
  refine Machine.invariant_of_meets (P := fun l : Latch => l.requests.fresh = false) ?_
    hstale hlater hrun
  intro l e l' hfresh hraise h
  cases e with
  | raise => exact absurd rfl hraise
  | poll => rcases step_poll h with ⟨-, rfl⟩ | ⟨-, rfl⟩ <;> rfl
  | clear =>
    obtain ⟨-, rfl⟩ := step_clear h
    exact hfresh

/-- Where requests come only after the one before was served and a poll follows the last one,
each request makes exactly one call if and only if the run is in time. -/
theorem eachOnce_iff_inTime {es es' : List LatchEvent}
    (hserved : (latch deferred).Meets RaisedAfterServed {} (es ++ .poll :: es'))
    (hlast : .raise ∉ es') (hrun : (latch deferred).run {} (es ++ .poll :: es') = some l) :
    l.requests.EachOnce l.calls ↔ (latch deferred).Meets InTime {} (es ++ .poll :: es') := by
  have hfresh : l.requests.fresh = false := by
    rw [Machine.run_append] at hrun
    obtain ⟨_, -, hrest⟩ := Option.bind_eq_some_iff.1 hrun
    exact fresh_of_poll hlast hrest
  rcases Machine.meets_or_spoiled (P := Orderly) (Q := Spoiled) (C := InTime)
      (fun _ _ _ hl hD hC h => hl.step hD hC h) (fun _ _ _ hl _ hC h => hl.spoiled hC h)
      (fun _ _ _ hl hD h => hl.step hD h) orderly_initial hserved hrun with
    ⟨htime, hl⟩ | ⟨hlate, hl⟩
  · exact iff_of_true (Requests.eachOnce_of_sum hl.calls (hl.all_ones hfresh)) htime
  · exact iff_of_false hl.not_eachOnce hlate

/-! ## Lowering the flag at once -/

/-- No clear is outstanding, and the flag is up for a fresh request only. -/
structure Immediate (l : Latch) : Prop where
  clears : l.clears = 0
  fresh : l.raised = true → l.requests.fresh = true

theorem Immediate.inTime (hl : l.Immediate) (h : (latch false).step l e = some l') :
    InTime l e := by
  cases e with
  | raise => exact trivial
  | poll => exact hl.fresh
  | clear =>
    have hclears := (step_clear h).1
    rw [hl.clears] at hclears
    omega

theorem Immediate.step (hl : l.Immediate) (h : (latch false).step l e = some l') :
    l'.Immediate := by
  cases e with
  | raise =>
    obtain rfl := step_raise h
    exact ⟨hl.clears, fun _ => rfl⟩
  | poll =>
    rcases step_poll h with ⟨-, rfl⟩ | ⟨hdown, rfl⟩
    · exact ⟨hl.clears, nofun⟩
    · exact ⟨hl.clears, fun hup => absurd hup (by simp [hdown])⟩
  | clear =>
    have hclears := (step_clear h).1
    rw [hl.clears] at hclears
    omega

/-- Without deferral every run is in time. -/
theorem inTime_of_immediate (es : List LatchEvent) : (latch false).Meets InTime {} es :=
  Machine.along_of_meets (P := Immediate) (C := fun _ _ => True)
    (fun _ _ _ hl _ h => ⟨hl.step h, hl.inTime h⟩) ⟨rfl, nofun⟩
    (Machine.meets_of_forall_mem (P := fun _ => True) fun _ _ => trivial)

/-! ## Machines with a latch -/

section Projection

variable {σ ε : Type*} {M : Machine σ ε} {f : σ → Latch} {g : ε → Option LatchEvent}

/-- `eachOnce_iff_inTime` for a machine that has a latch as its projection. -/
theorem eachOnce_iff_of_projects (h : M.ProjectsTo (latch deferred) f g) {s s' : σ} {p : ε}
    {es es' : List ε} (hstart : f s = {}) (hp : g p = some .poll)
    (hserved : M.Meets (fun s e => g e = some .raise → ¬ (f s).requests.Unserved) s
      (es ++ p :: es'))
    (hlast : ∀ e ∈ es', g e ≠ some .raise) (hrun : M.run s (es ++ p :: es') = some s') :
    (f s').requests.EachOnce (f s').calls ↔
      M.Meets (fun s e => ∀ e' ∈ g e, InTime (f s) e') s (es ++ p :: es') := by
  have hraised :
      M.Meets (fun s e => ∀ e' ∈ g e, RaisedAfterServed (f s) e') s (es ++ p :: es') := by
    refine hserved.mono fun s e _ hlatest e' he' hraise => ?_
    subst hraise
    exact hlatest he'
  have hraised' := (h.meets_iff hrun).2 hraised
  have hrun' := h.run hrun
  rw [← h.meets_iff hrun]
  rw [List.filterMap_append, List.filterMap_cons_some hp, hstart] at *
  refine eachOnce_iff_inTime hraised' ?_ hrun'
  intro hraise
  obtain ⟨e, he, hge⟩ := List.mem_filterMap.1 hraise
  exact hlast e he hge

/-- Where that latch lowers its flag at once, each request makes exactly one call. -/
theorem eachOnce_of_projects (h : M.ProjectsTo (latch false) f g) {s s' : σ} {p : ε}
    {es es' : List ε} (hstart : f s = {}) (hp : g p = some .poll)
    (hserved : M.Meets (fun s e => g e = some .raise → ¬ (f s).requests.Unserved) s
      (es ++ p :: es'))
    (hlast : ∀ e ∈ es', g e ≠ some .raise) (hrun : M.run s (es ++ p :: es') = some s') :
    (f s').requests.EachOnce (f s').calls := by
  rw [eachOnce_iff_of_projects h hstart hp hserved hlast hrun, ← h.meets_iff hrun, hstart]
  exact inTime_of_immediate _

end Projection

end Latch

end Framework
