import Mathlib.Data.Nat.Notation
import Mathlib.Logic.Function.Basic
import Mathlib.Logic.Relation
import Mathlib.Tactic.Push
import SecureComm.Library.Machine

/-!
# Systems of machines

A `System` runs a family of machines, in any interleaving, against a shared
environment that answers their calls.

The first part is about any transition relation: `invariant` is the induction over
its runs, `Chain.bounded` bounds them by a measure that every step lowers, and
`Chain.simulate` carries a run over to another transition relation.  The second part is
about systems; `System.Reachable.exists_thread` takes one machine's run out of a system's.
-/

namespace Interaction

universe u v

/-! ## Runs of a transition relation -/

section Transitions

variable {S : Type u} {T : Type v} {step : S → S → Prop} {step' : T → T → Prop}

/-- **Induction over runs.**  What holds at the start and is kept by every step
holds in every reachable state. -/
theorem invariant {start s : S} (reach : Relation.ReflTransGen step start s)
    {I : S → Prop} (base : I start)
    (keep : ∀ s s', Relation.ReflTransGen step start s → I s → step s s' → I s') :
    I s := by
  induction reach with
  | refl => exact base
  | tail front last ih => exact keep _ _ front ih last

/-- A run of `n` steps. -/
inductive Chain (step : S → S → Prop) : ℕ → S → S → Prop
  | nil (s : S) : Chain step 0 s s
  | snoc {n : ℕ} {start s s' : S} :
      Chain step n start s → step s s' → Chain step (n + 1) start s'

theorem Chain.reachable {n : ℕ} {start s : S} (chain : Chain step n start s) :
    Relation.ReflTransGen step start s := by
  induction chain with
  | nil s => exact .refl
  | snoc _ last ih => exact ih.tail last

/-- Every reachable state is reached in some number of steps. -/
theorem exists_chain {start s : S} (reach : Relation.ReflTransGen step start s) :
    ∃ n, Chain step n start s := by
  induction reach with
  | refl => exact ⟨0, .nil start⟩
  | tail _ last ih =>
      obtain ⟨n, chain⟩ := ih
      exact ⟨n + 1, chain.snoc last⟩

/-- **Runs are bounded by any measure their steps lower.** -/
theorem Chain.bounded {start s : S} (μ : S → ℕ)
    (lowers : ∀ s s', Relation.ReflTransGen step start s → step s s' → μ s' < μ s)
    {n : ℕ} (chain : Chain step n start s) : μ s + n ≤ μ start := by
  induction chain with
  | nil s => simp
  | snoc front last ih =>
      have lower := lowers _ _ front.reachable last
      have upper := ih lowers
      omega

/-- **Bounded runs end.**  Where every run is bounded, one that cannot go on is reached. -/
theorem exists_stuck {start : S} {b : ℕ}
    (bounded : ∀ n s, Chain step n start s → n ≤ b) :
    ∃ s, Relation.ReflTransGen step start s ∧ ∀ s', ¬ step s s' := by
  by_contra going
  simp only [not_exists, not_and, not_forall, not_not] at going
  have longer : ∀ n, ∃ s, Chain step n start s := by
    intro n
    induction n with
    | zero => exact ⟨start, .nil start⟩
    | succ n ih =>
        obtain ⟨s, chain⟩ := ih
        obtain ⟨s', next⟩ := going s chain.reachable
        exact ⟨s', chain.snoc next⟩
  obtain ⟨s, chain⟩ := longer (b + 1)
  exact absurd (bounded _ s chain) (by omega)

/-- **Simulation.**  If every step can be followed on the other side, so can every
run, and it takes as many steps there. -/
theorem Chain.simulate {R : S → T → Prop}
    (follow : ∀ s s' t, R s t → step s s' → ∃ t', step' t t' ∧ R s' t')
    {start s : S} {start' : T} (rel : R start start') {n : ℕ}
    (chain : Chain step n start s) : ∃ t, Chain step' n start' t ∧ R s t := by
  induction chain with
  | nil s => exact ⟨start', .nil start', rel⟩
  | snoc _ last ih =>
      obtain ⟨t, chain', rel'⟩ := ih rel
      obtain ⟨t', last', rel''⟩ := follow _ _ _ rel' last
      exact ⟨t', chain'.snoc last', rel''⟩

end Transitions

/-! ## Systems -/

/-- A state of a system: the environment, each machine, and the record each
machine leaves of what it did. -/
structure World (Pid K Rec : Type) (P : Type u) where
  env : K
  procs : Pid → P
  log : Pid → List Rec

/-- A family of machines over one environment.  `may` gates which machine can
act, `answer` says how the environment answers a call (and what is recorded),
and `move` is what the environment can do by itself. -/
structure System (Op : Type) (Resp : Op → Type) (Pid K Rec : Type) (P : Type u) where
  next : Machine Op Resp P
  may : (Pid → P) → Pid → Prop
  answer : Pid → K → (op : Op) → Resp op → K → List Rec → Prop
  move : (Pid → List Rec) → K → K → Prop

namespace System

variable {Op : Type} {Resp : Op → Type} {Pid K Rec : Type} [DecidableEq Pid]
variable {P : Type u}

/-- One machine makes its call, or the environment moves. -/
inductive Step (sys : System Op Resp Pid K Rec P) :
    World Pid K Rec P → World Pid K Rec P → Prop
  | act {w : World Pid K Rec P} (pid : Pid) (e : Event Op Resp) {p : P} {env : K}
      {recs : List Rec} (may : sys.may w.procs pid)
      (step : sys.next.Step (w.procs pid) e p)
      (answer : sys.answer pid w.env e.1 e.2 env recs) :
      Step sys w
        ⟨env, Function.update w.procs pid p,
          Function.update w.log pid (w.log pid ++ recs)⟩
  | move {w : World Pid K Rec P} {env : K} (h : sys.move w.log w.env env) :
      Step sys w { w with env := env }

/-- What is on record once one machine has added to its own. -/
theorem mem_update_log {log : Pid → List Rec} {pid other : Pid} {recs : List Rec} {r : Rec} :
    r ∈ Function.update log other (log other ++ recs) pid ↔
      r ∈ log pid ∨ pid = other ∧ r ∈ recs := by
  by_cases same : pid = other
  · subst same; simp
  · simp [same]

/-- No machine can make its call, and the environment cannot move. -/
def Stuck (sys : System Op Resp Pid K Rec P) (w : World Pid K Rec P) : Prop :=
  ∀ w', ¬ sys.Step w w'

/-- Reachability: any number of steps. -/
def Reachable (sys : System Op Resp Pid K Rec P) :
    World Pid K Rec P → World Pid K Rec P → Prop :=
  Relation.ReflTransGen sys.Step

/-- One machine's run in a system's: what it called, what each answer was, and what it
left on record. -/
structure Thread (sys : System Op Resp Pid K Rec P) (start w : World Pid K Rec P) (pid : Pid)
    (t : List (Event Op Resp × List Rec)) : Prop where
  run : Machine.Runs sys.next (start.procs pid) (t.map Prod.fst) (w.procs pid)
  log : w.log pid = start.log pid ++ t.flatMap Prod.snd
  answers : ∀ x ∈ t, ∃ env env', sys.answer pid env x.1.1 x.1.2 env' x.2

/-- **Every machine of a reachable state has a run of its own.** -/
theorem Reachable.exists_thread {sys : System Op Resp Pid K Rec P}
    {start w : World Pid K Rec P} (reach : sys.Reachable start w) (pid : Pid) :
    ∃ t, sys.Thread start w pid t := by
  refine invariant reach (I := fun w => ∃ t, sys.Thread start w pid t)
    ⟨[], .nil _, by simp, by simp⟩ ?_
  rintro w w' - ⟨t, run, log, answers⟩ step
  cases step with
  | @act other e p env recs may step answer =>
      by_cases same : pid = other
      · subst same
        refine ⟨t ++ [(e, recs)], ?_, ?_, ?_⟩
        · simpa using run.snoc step
        · simp [log]
        · intro x inside
          rcases List.mem_append.mp inside with before | last
          · exact answers x before
          · rw [List.mem_singleton.mp last]
            exact ⟨_, _, answer⟩
      · -- another machine has moved
        refine ⟨t, ?_, ?_, answers⟩
        · simpa [same] using run
        · simpa [same] using log
  | move h => exact ⟨t, run, log, answers⟩

end System

end Interaction
