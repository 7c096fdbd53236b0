import Mathlib.Data.Set.Insert

/-!
# Deduction

What somebody can derive from what they know, for any notion of a rule: a relation
between a set of premises and a conclusion.  Derivations may use every rule any number
of times, so `Derives` is the least set that contains the knowledge and is closed under
the rules.

The rule of proof is `Derives.mem_of_closed`: to show that something cannot be derived,
exhibit a closed set without it.  `Derives.admissible` leaves rules out that lead nowhere
new, which is how derivations are brought into a normal form.
-/

namespace Deduction

universe u

variable {T : Type u}

/-- Rules: premises and conclusion. -/
abbrev Rules (T : Type u) : Type u := Set T → T → Prop

variable {rules rules' : Rules T} {known known' S : Set T} {t : T}

/-- What follows from the knowledge by the rules. -/
inductive Derives (rules : Rules T) (known : Set T) : T → Prop
  | known {t : T} (h : t ∈ known) : Derives rules known t
  | apply {premises : Set T} {t : T} (rule : rules premises t)
      (all : ∀ p ∈ premises, Derives rules known p) : Derives rules known t

/-- The set contains every conclusion whose premises it contains. -/
def Closed (rules : Rules T) (S : Set T) : Prop :=
  ∀ premises t, rules premises t → premises ⊆ S → t ∈ S

/-- **A closed set contains what can be derived from it.** -/
theorem Derives.mem_of_closed (closed : Closed rules S) (inside : known ⊆ S)
    (h : Derives rules known t) : t ∈ S := by
  induction h with
  | known h => exact inside h
  | apply rule _ ih => exact closed _ _ rule ih

/-- Knowing more, one derives more. -/
theorem Derives.mono (more : known ⊆ known') (h : Derives rules known t) :
    Derives rules known' t := by
  induction h with
  | known h => exact .known (more h)
  | apply rule _ ih => exact .apply rule ih

/-- **Cut.**  What was derived can be used as if it had been known. -/
theorem Derives.cut (derived : ∀ p ∈ known', Derives rules known p)
    (h : Derives rules known' t) : Derives rules known t := by
  induction h with
  | known h => exact derived _ h
  | apply rule _ ih => exact .apply rule ih

/-- **Admissible rules.**  Where every rule leads from what the others derive to what they
derive, the others are enough. -/
theorem Derives.admissible
    (admits : ∀ premises t, rules premises t → (∀ p ∈ premises, Derives rules' known p) →
      Derives rules' known t) (h : Derives rules known t) : Derives rules' known t :=
  h.mem_of_closed (S := {t | Derives rules' known t}) admits fun _ => .known

/-- With more rules, one derives more. -/
theorem Derives.weaken (more : ∀ premises t, rules premises t → rules' premises t)
    (h : Derives rules known t) : Derives rules' known t :=
  h.admissible fun premises t rule all => .apply (more premises t rule) all

end Deduction
