import SecureComm.Library.Machine

/-!
# Monitors

A monitor watches a trace event by event.  It keeps a state of its own and rejects a
trace at the first event it does not allow there.

The rule of proof is `Monitor.accepts`: to show that a monitor rejects no run of a
machine, relate the states of the two so that every step of the machine is allowed and
keeps them related.
-/

namespace Interaction

universe u v

/-- A watcher of traces: where it starts, and where an event leads if it is allowed. -/
structure Monitor (E : Type u) (S : Type v) where
  start : S
  step : S → E → Option S

namespace Monitor

variable {E : Type u} {S : Type v}

/-- The state after a trace, if all of it is allowed. -/
def watch (M : Monitor E S) : S → List E → Option S
  | s, [] => some s
  | s, e :: t => (M.step s e).bind fun s' => M.watch s' t

/-- A trace is watched piece by piece. -/
theorem watch_append (M : Monitor E S) (s : S) (t t' : List E) :
    M.watch s (t ++ t') = (M.watch s t).bind fun s' => M.watch s' t' := by
  induction t generalizing s with
  | nil => rfl
  | cons e t ih =>
      cases here : M.step s e with
      | none => simp [watch, here]
      | some s' => simp [watch, here, ih]

/-- One event more. -/
theorem watch_snoc {M : Monitor E S} {s s' s'' : S} {t : List E} {e : E}
    (before : M.watch s t = some s') (last : M.step s' e = some s'') :
    M.watch s (t ++ [e]) = some s'' := by
  simp [watch_append, before, watch, last]

section Machines

variable {Op : Type} {Resp : Op → Type} {P : Type u} {next : Machine Op Resp P}
  {M : Monitor (Event Op Resp) S} {R : P → S → Prop}

/-- **A monitor that can follow a machine accepts its runs**, and is related to the state
the machine has reached. -/
theorem accepts
    (follow : ∀ p s e q, R p s → Machine.Step next p e q →
      ∃ s', M.step s e = some s' ∧ R q s')
    {p q : P} {t : List (Event Op Resp)} (start : R p M.start)
    (run : Machine.Runs next p t q) : ∃ s, M.watch M.start t = some s ∧ R q s := by
  refine run.induction (I := fun t q => ∃ s, M.watch M.start t = some s ∧ R q s)
    ⟨M.start, rfl, start⟩ ?_
  rintro t q e r - ⟨s, seen, rel⟩ step
  obtain ⟨s', allowed, rel'⟩ := follow q s e r rel step
  exact ⟨s', watch_snoc seen allowed, rel'⟩

end Machines

end Monitor

end Interaction
