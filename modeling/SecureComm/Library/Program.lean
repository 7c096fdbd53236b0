import Mathlib.Logic.Relation

/-!
# Interactive programs

A program here is a finite tree of local work (reads and writes of its own
memory) whose inner nodes are *calls*: operations the program itself cannot
decide, answered by whatever surrounds it.  It ends by returning, by an
exception nobody catches, or in undefined behaviour.  The one unbounded
construct is `Prog.loop`, a loop whose every round opens with a call, so that
between two calls a program only ever does finitely much.

`Prog.settle` runs the local work up to the next call.  A process is a settled
program with its memory, and `Proc.next` presents it as a *machine*: the call it
is waiting in, and the process each answer resumes.
-/

namespace Interaction

/-- A program over the calls `Op` (each answered in `Resp op`), with memory
`Mem`, exceptions `Exn` and kinds of undefined behaviour `Fault`. -/
inductive Prog (Op : Type) (Resp : Op → Type) (Mem Exn Fault : Type) : Type → Type 1
  | ret {α : Type} (a : α) : Prog Op Resp Mem Exn Fault α
  | throw {α : Type} (e : Exn) : Prog Op Resp Mem Exn Fault α
  | undef {α : Type} (f : Fault) : Prog Op Resp Mem Exn Fault α
  | read {α : Type} (k : Mem → Prog Op Resp Mem Exn Fault α) :
      Prog Op Resp Mem Exn Fault α
  | modify {α : Type} (f : Mem → Mem) (p : Prog Op Resp Mem Exn Fault α) :
      Prog Op Resp Mem Exn Fault α
  | call {α : Type} (op : Op) (k : Resp op → Prog Op Resp Mem Exn Fault α) :
      Prog Op Resp Mem Exn Fault α
  | loop {α σ β : Type} (op : Op) (s : σ)
      (body : σ → Resp op → Prog Op Resp Mem Exn Fault (σ ⊕ β))
      (k : β → Prog Op Resp Mem Exn Fault α) : Prog Op Resp Mem Exn Fault α

namespace Prog

variable {Op : Type} {Resp : Op → Type} {Mem Exn Fault : Type} {α β γ : Type}

/-- Sequencing.  Exceptions and undefined behaviour skip what follows. -/
def bind {α β : Type} :
    Prog Op Resp Mem Exn Fault α → (α → Prog Op Resp Mem Exn Fault β) →
      Prog Op Resp Mem Exn Fault β
  | .ret a, f => f a
  | .throw e, _ => .throw e
  | .undef x, _ => .undef x
  | .read k, f => .read fun m => (k m).bind f
  | .modify g p, f => .modify g (p.bind f)
  | .call op k, f => .call op fun r => (k r).bind f
  | .loop op s body k, f => .loop op s body fun b => (k b).bind f

instance : Monad (Prog Op Resp Mem Exn Fault) where
  pure := .ret
  bind := bind

@[simp] theorem pure_eq (a : α) :
    (pure a : Prog Op Resp Mem Exn Fault α) = .ret a := rfl

@[simp] theorem bind_eq (p : Prog Op Resp Mem Exn Fault α)
    (f : α → Prog Op Resp Mem Exn Fault β) : (p >>= f) = p.bind f := rfl

@[simp] theorem ret_bind (a : α) (f : α → Prog Op Resp Mem Exn Fault β) :
    (Prog.ret a).bind f = f a := rfl

@[simp] theorem throw_bind (e : Exn) (f : α → Prog Op Resp Mem Exn Fault β) :
    (Prog.throw e).bind f = .throw e := rfl

@[simp] theorem undef_bind (x : Fault) (f : α → Prog Op Resp Mem Exn Fault β) :
    (Prog.undef x).bind f = .undef x := rfl

@[simp] theorem read_bind (k : Mem → Prog Op Resp Mem Exn Fault α)
    (f : α → Prog Op Resp Mem Exn Fault β) :
    (Prog.read k).bind f = .read fun m => (k m).bind f := rfl

@[simp] theorem modify_bind (g : Mem → Mem) (p : Prog Op Resp Mem Exn Fault α)
    (f : α → Prog Op Resp Mem Exn Fault β) :
    (Prog.modify g p).bind f = .modify g (p.bind f) := rfl

@[simp] theorem call_bind (op : Op) (k : Resp op → Prog Op Resp Mem Exn Fault α)
    (f : α → Prog Op Resp Mem Exn Fault β) :
    (Prog.call op k).bind f = .call op fun r => (k r).bind f := rfl

@[simp] theorem loop_bind {σ δ : Type} (op : Op) (s : σ)
    (body : σ → Resp op → Prog Op Resp Mem Exn Fault (σ ⊕ δ))
    (k : δ → Prog Op Resp Mem Exn Fault α) (f : α → Prog Op Resp Mem Exn Fault β) :
    (Prog.loop op s body k).bind f = .loop op s body fun b => (k b).bind f := rfl

/-- Sequencing is associative: a function called in the middle of a body can be
unfolded there. -/
theorem bind_assoc (p : Prog Op Resp Mem Exn Fault α)
    (f : α → Prog Op Resp Mem Exn Fault β) (g : β → Prog Op Resp Mem Exn Fault γ) :
    (p.bind f).bind g = p.bind fun a => (f a).bind g := by
  induction p with
  | ret a => rfl
  | throw e => rfl
  | undef x => rfl
  | read k ih => exact congrArg Prog.read (funext fun m => ih m f)
  | modify h p ih => exact congrArg (Prog.modify h) (ih f)
  | call op k ih => exact congrArg (Prog.call op) (funext fun r => ih r f)
  | loop op s body k _ ih => exact congrArg (Prog.loop op s body) (funext fun b => ih b f)

/-- One call, its answer returned. -/
def ask (op : Op) : Prog Op Resp Mem Exn Fault (Resp op) := .call op .ret

/-- Runs `cleanup` before an exception of the program travels on. -/
def onThrow {α : Type} : Prog Op Resp Mem Exn Fault α →
    Prog Op Resp Mem Exn Fault Unit → Prog Op Resp Mem Exn Fault α
  | .ret a, _ => .ret a
  | .throw e, cleanup => cleanup.bind fun _ => .throw e
  | .undef x, _ => .undef x
  | .read k, cleanup => .read fun m => (k m).onThrow cleanup
  | .modify g p, cleanup => .modify g (p.onThrow cleanup)
  | .call op k, cleanup => .call op fun r => (k r).onThrow cleanup
  | .loop op s body k, cleanup =>
      .loop op s (fun s r => (body s r).onThrow cleanup) fun b => (k b).onThrow cleanup

/-- A scope with a destructor: `cleanup` runs however `p` is left. -/
def withCleanup (cleanup : Prog Op Resp Mem Exn Fault Unit)
    (p : Prog Op Resp Mem Exn Fault α) : Prog Op Resp Mem Exn Fault α :=
  (p.onThrow cleanup).bind fun a => cleanup.bind fun _ => .ret a

end Prog

/-- A process: its memory and the program it has still to run. -/
structure Proc (Op : Type) (Resp : Op → Type) (Mem Exn Fault α : Type) where
  mem : Mem
  prog : Prog Op Resp Mem Exn Fault α

namespace Prog

variable {Op : Type} {Resp : Op → Type} {Mem Exn Fault : Type} {α β : Type}

/-- Local work up to the next call, or to the end of the program. -/
def settle : Prog Op Resp Mem Exn Fault α → Mem → Proc Op Resp Mem Exn Fault α
  | .read k, m => (k m).settle m
  | .modify f p, m => p.settle (f m)
  | .ret a, m => ⟨m, .ret a⟩
  | .throw e, m => ⟨m, .throw e⟩
  | .undef x, m => ⟨m, .undef x⟩
  | .call op k, m => ⟨m, .call op k⟩
  | .loop op s body k, m => ⟨m, .loop op s body k⟩

@[simp] theorem settle_read (k : Mem → Prog Op Resp Mem Exn Fault α) (m : Mem) :
    (Prog.read k).settle m = (k m).settle m := rfl

@[simp] theorem settle_modify (f : Mem → Mem) (p : Prog Op Resp Mem Exn Fault α)
    (m : Mem) : (Prog.modify f p).settle m = p.settle (f m) := rfl

@[simp] theorem settle_ret (a : α) (m : Mem) :
    (Prog.ret a : Prog Op Resp Mem Exn Fault α).settle m = ⟨m, .ret a⟩ := rfl

@[simp] theorem settle_throw (e : Exn) (m : Mem) :
    (Prog.throw e : Prog Op Resp Mem Exn Fault α).settle m = ⟨m, .throw e⟩ := rfl

@[simp] theorem settle_undef (x : Fault) (m : Mem) :
    (Prog.undef x : Prog Op Resp Mem Exn Fault α).settle m = ⟨m, .undef x⟩ := rfl

@[simp] theorem settle_call (op : Op) (k : Resp op → Prog Op Resp Mem Exn Fault α)
    (m : Mem) : (Prog.call op k).settle m = ⟨m, .call op k⟩ := rfl

@[simp] theorem settle_loop {σ δ : Type} (op : Op) (s : σ)
    (body : σ → Resp op → Prog Op Resp Mem Exn Fault (σ ⊕ δ))
    (k : δ → Prog Op Resp Mem Exn Fault α) (m : Mem) :
    (Prog.loop op s body k).settle m = ⟨m, .loop op s body k⟩ := rfl

/-- What a round of a loop leaves to do: another round, or what follows. -/
def again {σ δ : Type} (op : Op)
    (body : σ → Resp op → Prog Op Resp Mem Exn Fault (σ ⊕ δ))
    (k : δ → Prog Op Resp Mem Exn Fault α) : σ ⊕ δ → Prog Op Resp Mem Exn Fault α
  | .inl s => .loop op s body k
  | .inr b => k b

end Prog

namespace Proc

variable {Op : Type} {Resp : Op → Type} {Mem Exn Fault α : Type}

/-- The call a process waits in and the process each answer resumes; `none`
when it has ended. -/
def next : Proc Op Resp Mem Exn Fault α →
    Option ((op : Op) × (Resp op → Proc Op Resp Mem Exn Fault α))
  | ⟨m, .call op k⟩ => some ⟨op, fun r => (k r).settle m⟩
  | ⟨m, .loop op s body k⟩ =>
      some ⟨op, fun r => ((body s r).bind (Prog.again op body k)).settle m⟩
  | _ => none

/-- A process that has returned waits for nothing. -/
theorem next_of_ret {p : Proc Op Resp Mem Exn Fault α} {a : α} (returned : p.prog = .ret a) :
    p.next = none := by
  obtain ⟨m, prog⟩ := p
  cases returned
  rfl

/-- Neither does one that an exception has left, -/
theorem next_of_throw {p : Proc Op Resp Mem Exn Fault α} {e : Exn}
    (threw : p.prog = .throw e) : p.next = none := by
  obtain ⟨m, prog⟩ := p
  cases threw
  rfl

/-- nor one whose behaviour is undefined. -/
theorem next_of_undef {p : Proc Op Resp Mem Exn Fault α} {f : Fault}
    (crashed : p.prog = .undef f) : p.next = none := by
  obtain ⟨m, prog⟩ := p
  cases crashed
  rfl

end Proc

end Interaction
