import Mathlib.Data.List.Induction
import Mathlib.Data.Nat.Notation
import SecureComm.Library.Program

/-!
# Machines and their traces

A machine is a deterministic process seen from outside: each of its states is
either over or waits in one call, and the answer to that call decides the next
state.  `Machine.Runs` is the trace semantics of one machine, and `Machine.Ends` says
what all its finished runs end in, one call at a time.

`Bisimulation` relates two presentations of one machine: their runs have the same
traces.
-/

namespace Interaction

universe u v

/-- A call together with the answer it got. -/
abbrev Event (Op : Type) (Resp : Op → Type) : Type := (op : Op) × Resp op

/-- The call a state waits in with the state each answer leads to, or `none`. -/
abbrev Machine (Op : Type) (Resp : Op → Type) (P : Type u) : Type u :=
  P → Option ((op : Op) × (Resp op → P))

namespace Machine

variable {Op : Type} {Resp : Op → Type} {P : Type u} {Q : Type v}

/-- One answered call. -/
def Step (next : Machine Op Resp P) (p : P) (e : Event Op Resp) (q : P) : Prop :=
  ∃ k, next p = some ⟨e.1, k⟩ ∧ q = k e.2

/-- A finite run, with the calls it made and the answers it got. -/
inductive Runs (next : Machine Op Resp P) : P → List (Event Op Resp) → P → Prop
  | nil (p : P) : Runs next p [] p
  | cons {p q r : P} {e : Event Op Resp} {t : List (Event Op Resp)} :
      Step next p e q → Runs next q t r → Runs next p (e :: t) r

theorem Step.intro {next : Machine Op Resp P} {p : P} {op : Op} {k : Resp op → P}
    (waiting : next p = some ⟨op, k⟩) (r : Resp op) : Step next p ⟨op, r⟩ (k r) :=
  ⟨k, waiting, rfl⟩

/-- The answer to a call decides the next state. -/
theorem Step.unique {next : Machine Op Resp P} {p q q' : P} {e : Event Op Resp}
    (left : Step next p e q) (right : Step next p e q') : q = q' := by
  obtain ⟨k, waiting, rfl⟩ := left
  obtain ⟨k', waiting', rfl⟩ := right
  rw [waiting] at waiting'
  cases waiting'
  rfl

/-- The answers decide the whole run. -/
theorem Runs.unique {next : Machine Op Resp P} {p q q' : P}
    {t : List (Event Op Resp)} (left : Runs next p t q) (right : Runs next p t q') :
    q = q' := by
  induction left with
  | nil p => cases right; rfl
  | cons step _ ih =>
      cases right with
      | cons step' rest' =>
          cases step.unique step'
          exact ih rest'

theorem Runs.append {next : Machine Op Resp P} {p q r : P}
    {t s : List (Event Op Resp)} (first : Runs next p t q) (second : Runs next q s r) :
    Runs next p (t ++ s) r := by
  induction first with
  | nil p => exact second
  | cons step _ ih => exact .cons step (ih second)

theorem Runs.snoc {next : Machine Op Resp P} {p q r : P} {t : List (Event Op Resp)}
    {e : Event Op Resp} (run : Runs next p t q) (step : Step next q e r) :
    Runs next p (t ++ [e]) r :=
  run.append (.cons step (.nil r))

/-- A run of a composite trace passes through a state between its parts. -/
theorem runs_append_iff {next : Machine Op Resp P} {p r : P}
    {t s : List (Event Op Resp)} :
    Runs next p (t ++ s) r ↔ ∃ q, Runs next p t q ∧ Runs next q s r := by
  constructor
  · intro run
    induction t generalizing p with
    | nil => exact ⟨p, .nil p, run⟩
    | cons e t ih =>
        cases run with
        | cons step rest =>
            obtain ⟨q, left, right⟩ := ih rest
            exact ⟨q, .cons step left, right⟩
  · rintro ⟨q, left, right⟩
    exact left.append right

/-- What every step preserves along a run holds at its end, with the trace so
far at hand. -/
theorem Runs.induction {next : Machine Op Resp P} {p q : P}
    {t : List (Event Op Resp)} (run : Runs next p t q)
    {I : List (Event Op Resp) → P → Prop} (start : I [] p)
    (step : ∀ t q e r, Runs next p t q → I t q → Step next q e r → I (t ++ [e]) r) :
    I t q := by
  suffices general : ∀ s, Runs next p s q → I s q from general t run
  clear run t
  intro s
  induction s using List.reverseRecOn generalizing q with
  | nil => intro run; cases run; exact start
  | append_singleton s e ih =>
      intro run
      obtain ⟨mid, front, last⟩ := runs_append_iff.mp run
      cases last with
      | cons here rest =>
          cases rest
          exact step s mid e q front (ih front) here

/-! ## Finished runs -/

/-- Every run from `p` with allowed answers that is over has ended in `Q`. -/
def Ends (next : Machine Op Resp P) (allowed : Event Op Resp → Prop) (p : P)
    (Q : P → Prop) : Prop :=
  ∀ t q, Runs next p t q → (∀ e ∈ t, allowed e) → next q = none → Q q

section Ends

variable {next : Machine Op Resp P} {allowed : Event Op Resp → Prop} {p : P} {Q : P → Prop}

/-- The runs of a state that waits are those of the states its answers lead to. -/
theorem ends_of_waiting {op : Op} {k : Resp op → P} (waiting : next p = some ⟨op, k⟩)
    (rest : ∀ r, allowed ⟨op, r⟩ → Ends next allowed (k r) Q) : Ends next allowed p Q := by
  intro t q run follows ended
  cases run with
  | nil =>
      rw [ended] at waiting
      cases waiting
  | @cons _ _ _ e _ step run =>
      obtain ⟨op', r⟩ := e
      obtain ⟨k', waiting', rfl⟩ := step
      rw [waiting] at waiting'
      cases waiting'
      obtain ⟨may, others⟩ := List.forall_mem_cons.mp follows
      exact rest r may _ q run others ended

/-- A state that is over has only its empty run. -/
theorem ends_of_ended (ended : next p = none) (holds : Q p) : Ends next allowed p Q := by
  intro t q run _ _
  cases run with
  | nil => exact holds
  | cons step _ =>
      obtain ⟨k, waiting, -⟩ := step
      rw [ended] at waiting
      cases waiting

/-- One answer later. -/
theorem Ends.step {q : P} {e : Event Op Resp} (ends : Ends next allowed p Q)
    (may : allowed e) (step : Step next p e q) : Ends next allowed q Q := by
  intro t r run follows ended
  exact ends (e :: t) r (.cons step run) (List.forall_mem_cons.mpr ⟨may, follows⟩) ended

/-- Nothing is left to answer. -/
theorem Ends.done (ends : Ends next allowed p Q) (ended : next p = none) : Q p :=
  ends [] p (.nil p) (by simp) ended

end Ends

/-! ## Bisimulation -/

/-- Two states agree on the call they wait in, and every answer keeps them
related. -/
inductive Matched (R : P → Q → Prop) :
    Option ((op : Op) × (Resp op → P)) → Option ((op : Op) × (Resp op → Q)) → Prop
  | ended : Matched R none none
  | waiting (op : Op) (k : Resp op → P) (k' : Resp op → Q) (h : ∀ r, R (k r) (k' r)) :
      Matched R (some ⟨op, k⟩) (some ⟨op, k'⟩)

/-- `R` relates states of two machines that cannot be told apart by calling. -/
def Bisimulation (next : Machine Op Resp P) (next' : Machine Op Resp Q)
    (R : P → Q → Prop) : Prop :=
  ∀ p q, R p q → Matched R (next p) (next' q)

namespace Bisimulation

variable {next : Machine Op Resp P} {next' : Machine Op Resp Q} {R : P → Q → Prop}

theorem step_left (bisim : Bisimulation next next' R) {p p' : P} {q : Q}
    {e : Event Op Resp} (rel : R p q) (step : Step next p e p') :
    ∃ q', Step next' q e q' ∧ R p' q' := by
  obtain ⟨k, waiting, rfl⟩ := step
  have matched := bisim p q rel
  rw [waiting] at matched
  generalize shape : next' q = right at matched
  cases matched with
  | waiting _ _ k' h => exact ⟨k' e.2, ⟨k', shape, rfl⟩, h e.2⟩

theorem step_right (bisim : Bisimulation next next' R) {p : P} {q q' : Q}
    {e : Event Op Resp} (rel : R p q) (step : Step next' q e q') :
    ∃ p', Step next p e p' ∧ R p' q' := by
  obtain ⟨k', waiting, rfl⟩ := step
  have matched := bisim p q rel
  rw [waiting] at matched
  generalize shape : next p = left at matched
  cases matched with
  | waiting _ k _ h => exact ⟨k e.2, ⟨k, shape, rfl⟩, h e.2⟩

/-- Related states wait in the same call. -/
theorem waiting_left (bisim : Bisimulation next next' R) {p : P} {q : Q} (rel : R p q)
    {op : Op} {k' : Resp op → Q} (waiting : next' q = some ⟨op, k'⟩) :
    ∃ k, next p = some ⟨op, k⟩ := by
  have matched := bisim p q rel
  rw [waiting] at matched
  generalize shape : next p = left at matched
  cases matched with
  | waiting _ k _ _ => exact ⟨k, rfl⟩

theorem waiting_right (bisim : Bisimulation next next' R) {p : P} {q : Q} (rel : R p q)
    {op : Op} {k : Resp op → P} (waiting : next p = some ⟨op, k⟩) :
    ∃ k', next' q = some ⟨op, k'⟩ := by
  have matched := bisim p q rel
  rw [waiting] at matched
  generalize shape : next' q = right at matched
  cases matched with
  | waiting _ _ k' _ => exact ⟨k', rfl⟩

/-- Related states end together. -/
theorem ended_left (bisim : Bisimulation next next' R) {p : P} {q : Q} (rel : R p q)
    (ended : next' q = none) : next p = none := by
  have matched := bisim p q rel
  rw [ended] at matched
  generalize shape : next p = left at matched
  cases matched
  rfl

theorem runs_right (bisim : Bisimulation next next' R) {p : P} {q q' : Q}
    {t : List (Event Op Resp)} (rel : R p q) (run : Runs next' q t q') :
    ∃ p', Runs next p t p' ∧ R p' q' := by
  induction run generalizing p with
  | nil q => exact ⟨p, .nil p, rel⟩
  | cons step _ ih =>
      obtain ⟨p₁, step₁, rel₁⟩ := bisim.step_right rel step
      obtain ⟨p₂, run₂, rel₂⟩ := ih rel₁
      exact ⟨p₂, .cons step₁ run₂, rel₂⟩

theorem runs_left (bisim : Bisimulation next next' R) {p p' : P} {q : Q}
    {t : List (Event Op Resp)} (rel : R p q) (run : Runs next p t p') :
    ∃ q', Runs next' q t q' ∧ R p' q' := by
  induction run generalizing q with
  | nil p => exact ⟨q, .nil q, rel⟩
  | cons step _ ih =>
      obtain ⟨q₁, step₁, rel₁⟩ := bisim.step_left rel step
      obtain ⟨q₂, run₂, rel₂⟩ := ih rel₁
      exact ⟨q₂, .cons step₁ run₂, rel₂⟩

end Bisimulation

end Machine

end Interaction
