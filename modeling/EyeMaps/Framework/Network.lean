import EyeMaps.Framework.Machine
import Mathlib.Data.List.Forall2
import Mathlib.Logic.Function.Basic

/-!
# Nodes that share a log

Programs on several devices that communicate through a store which everyone appends to and reads
from.  A `Node` is the program of one device: what it does on an event of its own and the messages
it sends by it, what it makes of a delivery, and how it starts again after it was stopped.

`Node.network` is the machine of any number of such nodes over one log.  The network promises
little: a delivery is any choice of messages of the log, old or new, repeated and in any order; a
node can be stopped at any time; and messages can come from outside.  `Node.Keeps` collects what has
to be shown of one node, assuming of the messages it reads what it guarantees of those it sends, and
`Keeps.run` concludes about every node and every message of a whole run.

`Node.Matches` relates nodes that keep their messages in different forms but do the same with those
that match; their networks then run in step (`Matches.run`).
-/

namespace Framework

/-- The program of a device. -/
structure Node (σ ε μ : Type*) where
  act : σ → ε → Option (σ × List μ)
  receive : σ → List μ → Option σ
  restart : σ → σ

/-- The states of the nodes, and the messages sent so far, latest last. -/
structure Network (ι σ μ : Type*) where
  nodes : ι → σ
  log : List μ

inductive Network.Event (ι ε μ : Type*)
  | act (i : ι) (e : ε)
  | deliver (i : ι) (picks : List ℕ)
  | restart (i : ι)
  | inject (m : μ)

namespace Network

variable {ι σ μ : Type*}

/-- The messages at the given positions of the log. -/
def pick (log : List μ) (picks : List ℕ) : List μ := picks.filterMap fun n => log[n]?

theorem mem_of_mem_pick {log : List μ} {picks : List ℕ} {m : μ} (h : m ∈ pick log picks) :
    m ∈ log := by
  obtain ⟨n, -, hm⟩ := List.mem_filterMap.1 h
  exact List.mem_of_getElem? hm

theorem mem_pick {log : List μ} {picks : List ℕ} {m : μ} {n : ℕ} (hn : n ∈ picks)
    (hm : log[n]? = some m) : m ∈ pick log picks :=
  List.mem_filterMap.2 ⟨n, hn, hm⟩

end Network

namespace Node

variable {ι σ ε μ : Type*} [DecidableEq ι] (N : Node σ ε μ)

open Network (pick)

/-- The machine of the nodes and the log. -/
def network (ι : Type*) [DecidableEq ι] : Machine (Network ι σ μ) (Network.Event ι ε μ) where
  step s
    | .act i e =>
      (N.act (s.nodes i) e).map fun p =>
        ⟨Function.update s.nodes i p.1, s.log ++ p.2⟩
    | .deliver i picks =>
      (N.receive (s.nodes i) (pick s.log picks)).map fun t =>
        { s with nodes := Function.update s.nodes i t }
    | .restart i => some { s with nodes := Function.update s.nodes i (N.restart (s.nodes i)) }
    | .inject m => some { s with log := s.log ++ [m] }

variable {N} {s s' : Network ι σ μ}

/-! ## What one step can do -/

theorem step_act {i : ι} {e : ε} (h : (N.network ι).step s (.act i e) = some s') :
    ∃ t ms, N.act (s.nodes i) e = some (t, ms) ∧
      s' = ⟨Function.update s.nodes i t, s.log ++ ms⟩ := by
  obtain ⟨⟨t, ms⟩, hact, rfl⟩ := Option.map_eq_some_iff.1 h
  exact ⟨t, ms, hact, rfl⟩

theorem step_deliver {i : ι} {picks : List ℕ}
    (h : (N.network ι).step s (.deliver i picks) = some s') :
    ∃ t, N.receive (s.nodes i) (pick s.log picks) = some t ∧
      s' = { s with nodes := Function.update s.nodes i t } := by
  obtain ⟨t, hreceive, rfl⟩ := Option.map_eq_some_iff.1 h
  exact ⟨t, hreceive, rfl⟩

/-- Messages are never taken back. -/
theorem prefix_log_step {e : Network.Event ι ε μ} (h : (N.network ι).step s e = some s') :
    s.log <+: s'.log := by
  cases e with
  | act i e =>
    obtain ⟨_, ms, -, rfl⟩ := step_act h
    exact List.prefix_append s.log ms
  | deliver i picks =>
    obtain ⟨_, -, rfl⟩ := step_deliver h
    exact List.prefix_rfl
  | restart i =>
    cases h
    exact List.prefix_rfl
  | inject m =>
    cases h
    exact List.prefix_append s.log [m]

/-- A message keeps its position. -/
theorem prefix_log_run {es : List (Network.Event ι ε μ)} (h : (N.network ι).run s es = some s') :
    s.log <+: s'.log :=
  Machine.invariant_of_step (P := fun t => s.log <+: t.log)
    (fun _ _ _ hprefix hstep => hprefix.trans (prefix_log_step hstep)) List.prefix_rfl h

/-! ## Guarantees of one node -/

variable (N)

/-- With `A` at the events of its own, `Q` of the messages it reads, and restarted only where `R`
allows it, node `i` keeps `P i` and guarantees `Q` of the messages it sends. -/
structure Keeps (A : ι → σ → ε → Prop) (R : ι → Prop) (P : ι → σ → Prop) (Q : μ → Prop) :
    Prop where
  act : ∀ i t e t' ms, P i t → A i t e → N.act t e = some (t', ms) → P i t' ∧ ∀ m ∈ ms, Q m
  receive : ∀ i t ms t', P i t → (∀ m ∈ ms, Q m) → N.receive t ms = some t' → P i t'
  restart : ∀ i t, R i → P i t → P i (N.restart t)

variable {N}

/-- The condition on the events of a run: `A` at the nodes, restarts where `R` allows them, and `Q`
of messages from outside. -/
def Admits (A : ι → σ → ε → Prop) (R : ι → Prop) (Q : μ → Prop) (s : Network ι σ μ) :
    Network.Event ι ε μ → Prop
  | .act i e => A i (s.nodes i) e
  | .deliver _ _ => True
  | .restart i => R i
  | .inject m => Q m

variable {A : ι → σ → ε → Prop} {R : ι → Prop} {P : ι → σ → Prop} {Q : μ → Prop}

/-- What holds of node `i` after its state was replaced. -/
theorem forall_update {t : σ} {i : ι} (hs : ∀ j, P j (s.nodes j)) (ht : P i t) (j : ι) :
    P j (Function.update s.nodes i t j) := by
  by_cases hj : j = i
  · subst hj
    rw [Function.update_self]
    exact ht
  · rw [Function.update_of_ne hj]
    exact hs j

theorem Keeps.step (h : N.Keeps A R P Q) {e : Network.Event ι ε μ}
    (hs : (∀ i, P i (s.nodes i)) ∧ ∀ m ∈ s.log, Q m) (he : Admits A R Q s e)
    (hstep : (N.network ι).step s e = some s') :
    (∀ i, P i (s'.nodes i)) ∧ ∀ m ∈ s'.log, Q m := by
  obtain ⟨hnodes, hlog⟩ := hs
  cases e with
  | act i e =>
    obtain ⟨t, ms, hact, rfl⟩ := step_act hstep
    obtain ⟨ht, hms⟩ := h.act i _ e t ms (hnodes i) he hact
    refine ⟨forall_update hnodes ht, fun m hm => ?_⟩
    rcases List.mem_append.1 hm with hold | hnew
    · exact hlog m hold
    · exact hms m hnew
  | deliver i picks =>
    obtain ⟨t, hreceive, rfl⟩ := step_deliver hstep
    have hpicked : ∀ m ∈ pick s.log picks, Q m := fun m hm =>
      hlog m (Network.mem_of_mem_pick hm)
    exact ⟨forall_update hnodes (h.receive i _ _ t (hnodes i) hpicked hreceive), hlog⟩
  | restart i =>
    cases hstep
    exact ⟨forall_update hnodes (h.restart i _ he (hnodes i)), hlog⟩
  | inject m =>
    cases hstep
    refine ⟨hnodes, fun m' hm' => ?_⟩
    rcases List.mem_append.1 hm' with hold | hnew
    · exact hlog m' hold
    · rw [List.mem_singleton.1 hnew]
      exact he

/-- The rule for networks: what every node keeps, assuming of the messages what all guarantee, holds
of every node and every message along a run whose events are admitted. -/
theorem Keeps.run (h : N.Keeps A R P Q) {es : List (Network.Event ι ε μ)}
    (hnodes : ∀ i, P i (s.nodes i)) (hlog : ∀ m ∈ s.log, Q m)
    (hes : (N.network ι).Meets (Admits A R Q) s es) (hrun : (N.network ι).run s es = some s') :
    (∀ i, P i (s'.nodes i)) ∧ ∀ m ∈ s'.log, Q m :=
  Machine.invariant_of_meets (P := fun t => (∀ i, P i (t.nodes i)) ∧ ∀ m ∈ t.log, Q m)
    (fun _ _ _ ht he hstep => h.step ht he hstep) ⟨hnodes, hlog⟩ hes hrun

end Node

/-! ## Messages in another form -/

section Matches

variable {ι σ ε μ ν : Type*} {R : μ → ν → Prop}

/-- The nodes are in the same states, and the messages match. -/
structure Network.Matches (R : μ → ν → Prop) (s : Network ι σ μ) (t : Network ι σ ν) : Prop where
  nodes : s.nodes = t.nodes
  log : List.Forall₂ R s.log t.log

/-- The events are the same, but for the form of a message from outside. -/
inductive Network.Event.Matches (R : μ → ν → Prop) : Event ι ε μ → Event ι ε ν → Prop
  | act (i e) : Matches R (.act i e) (.act i e)
  | deliver (i picks) : Matches R (.deliver i picks) (.deliver i picks)
  | restart (i) : Matches R (.restart i) (.restart i)
  | inject {m n} (h : R m n) : Matches R (.inject m) (.inject n)

/-- The network with its messages in the form that `f` gives them. -/
def Network.map (f : μ → ν) (s : Network ι σ μ) : Network ι σ ν := ⟨s.nodes, s.log.map f⟩

def Network.Event.map (f : μ → ν) : Event ι ε μ → Event ι ε ν
  | .act i e => .act i e
  | .deliver i picks => .deliver i picks
  | .restart i => .restart i
  | .inject m => .inject (f m)

theorem Network.matches_map {f : μ → ν} (h : ∀ m, R m (f m)) (s : Network ι σ μ) :
    s.Matches R (s.map f) where
  nodes := rfl
  log := List.forall₂_map_right_iff.2 (List.forall₂_same.2 fun m _ => h m)

theorem Network.Event.matches_map {f : μ → ν} (h : ∀ m, R m (f m)) (e : Event ι ε μ) :
    e.Matches R (e.map f) := by
  cases e with
  | act i e => exact .act i e
  | deliver i picks => exact .deliver i picks
  | restart i => exact .restart i
  | inject m => exact .inject (h m)

/-- The nodes do the same on messages that match, and send messages that match. -/
structure Node.Matches (R : μ → ν → Prop) (N : Node σ ε μ) (N' : Node σ ε ν) : Prop where
  act : ∀ s e, Option.Rel (fun p q => p.1 = q.1 ∧ List.Forall₂ R p.2 q.2) (N.act s e) (N'.act s e)
  receive : ∀ s ms ns, List.Forall₂ R ms ns → N.receive s ms = N'.receive s ns
  restart : ∀ s, N.restart s = N'.restart s

theorem Network.forall₂_pick {ms : List μ} {ns : List ν} (h : List.Forall₂ R ms ns)
    (picks : List ℕ) : List.Forall₂ R (pick ms picks) (pick ns picks) := by
  have hget : ∀ n : ℕ, Option.Rel R ms[n]? ns[n]? := by
    induction h with
    | nil => exact fun _ => .none
    | cons hhead _ ih =>
      intro n
      cases n with
      | zero => exact .some hhead
      | succ n => exact ih n
  refine List.rel_filterMap (R := Eq) ?_ (List.forall₂_refl picks)
  rintro n _ rfl
  exact hget n

namespace Node.Matches

variable [DecidableEq ι] {N : Node σ ε μ} {N' : Node σ ε ν} {s : Network ι σ μ}
  {t : Network ι σ ν}

theorem step (h : N.Matches R N') (hst : s.Matches R t) {e : Network.Event ι ε μ}
    {e' : Network.Event ι ε ν} (he : e.Matches R e') :
    Option.Rel (Network.Matches R) ((N.network ι).step s e) ((N'.network ι).step t e') := by
  obtain ⟨nodes, ms⟩ := s
  obtain ⟨nodes', ns⟩ := t
  obtain ⟨hnodes, hlog⟩ := hst
  obtain rfl : nodes = nodes' := hnodes
  cases he with
  | act i e =>
    have hact := h.act (nodes i) e
    show Option.Rel _ ((N.act (nodes i) e).map _) ((N'.act (nodes i) e).map _)
    -- Both nodes refuse the event, or both go on and what they send is appended.
    generalize N.act (nodes i) e = r at hact ⊢
    generalize N'.act (nodes i) e = r' at hact ⊢
    cases hact with
    | none => exact .none
    | @some p q hact =>
      obtain ⟨hstate, hsent⟩ := hact
      exact .some ⟨congrArg (Function.update nodes i) hstate, List.rel_append hlog hsent⟩
  | deliver i picks =>
    have hreceive := h.receive (nodes i) _ _ (Network.forall₂_pick hlog picks)
    show Option.Rel _ ((N.receive (nodes i) _).map _) ((N'.receive (nodes i) _).map _)
    rw [hreceive]
    cases N'.receive (nodes i) (Network.pick ns picks) with
    | none => exact .none
    | some t => exact .some ⟨rfl, hlog⟩
  | restart i =>
    have hrestart := h.restart (nodes i)
    exact .some ⟨congrArg (Function.update nodes i) hrestart, hlog⟩
  | inject hm => exact .some ⟨rfl, List.rel_append hlog (.cons hm .nil)⟩

/-- The networks of nodes that match run in step. -/
theorem run (h : N.Matches R N') (hst : s.Matches R t) {es : List (Network.Event ι ε μ)}
    {es' : List (Network.Event ι ε ν)} (hes : List.Forall₂ (Network.Event.Matches R) es es') :
    Option.Rel (Network.Matches R) ((N.network ι).run s es) ((N'.network ι).run t es') := by
  induction hes generalizing s t with
  | nil => exact .some hst
  | @cons e e' _ _ he _ ih =>
    have hstep := h.step hst he
    rw [Machine.run_cons, Machine.run_cons]
    generalize (N.network ι).step s e = r at hstep ⊢
    generalize (N'.network ι).step t e' = r' at hstep ⊢
    cases hstep with
    | none => exact .none
    | some hst => exact ih hst

/-- So does the network of the other nodes with all messages in the form of `f`. -/
theorem run_map (h : N.Matches R N') {f : μ → ν} (hf : ∀ m, R m (f m)) (s : Network ι σ μ)
    (es : List (Network.Event ι ε μ)) :
    Option.Rel (Network.Matches R) ((N.network ι).run s es)
      ((N'.network ι).run (s.map f) (es.map (Network.Event.map f))) :=
  h.run (Network.matches_map hf s) (List.forall₂_map_right_iff.2
    (List.forall₂_same.2 fun e _ => Network.Event.matches_map hf e))

end Node.Matches

end Matches

end Framework
