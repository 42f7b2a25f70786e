import Mathlib.Data.List.Basic
import Mathlib.Tactic

/-!
# Computations that record their operations

A computation that may throw, together with the list of primitive operations it executed.
What it did before it threw stays recorded. Forgetting the record gives back the plain
computation, and a property of operations holds of a whole computation when it holds of
every part that is reached.
-/

namespace OperationTraces

variable {Op ε α β : Type}

structure Traced (Op ε α : Type) where
  ops : List Op
  result : Except ε α

namespace Traced

def exec (value : Op → α) (op : Op) : Traced Op ε α := ⟨[op], .ok (value op)⟩

def throw (e : ε) : Traced Op ε α := ⟨[], .error e⟩

instance : Monad (Traced Op ε) where
  pure a := ⟨[], .ok a⟩
  bind x f :=
    match x.result with
    | .error e => ⟨x.ops, .error e⟩
    | .ok a => ⟨x.ops ++ (f a).ops, (f a).result⟩

def All (p : Op → Prop) (x : Traced Op ε α) : Prop := ∀ op ∈ x.ops, p op

variable {p : Op → Prop}

@[simp] theorem result_exec_bind (value : Op → α) (op : Op) (f : α → Traced Op ε β) :
    (exec value op >>= f).result = (f (value op)).result := rfl

theorem result_ite (c : Prop) [Decidable c] (x y : Traced Op ε α) :
    (if c then x else y).result = if c then x.result else y.result := apply_ite _ _ _ _

@[simp] theorem all_pure (a : α) : All p (pure a : Traced Op ε α) := by
  simp [All, pure]

@[simp] theorem all_throw (e : ε) : All p (throw e : Traced Op ε α) := by
  simp [All, throw]

@[simp] theorem all_exec_bind (value : Op → α) (op : Op) (f : α → Traced Op ε β) :
    All p (exec value op >>= f) ↔ p op ∧ All p (f (value op)) :=
  List.forall_mem_cons

theorem result_map (f : α → β) (x : Traced Op ε α) : (f <$> x).result = x.result.map f := by
  obtain ⟨ops, result⟩ := x
  cases result <;> rfl

@[simp] theorem all_map (f : α → β) (x : Traced Op ε α) : All p (f <$> x) ↔ All p x := by
  obtain ⟨ops, result⟩ := x
  cases result with
  | error e => rfl
  | ok a => simp [All, Functor.map]

end Traced

end OperationTraces
