import CostGovernor.Executions
import Mathlib.Logic.Function.Basic

/-!
# Replacing a file through a temporary one

A writer creates the temporary file, or empties the one that is there, writes its data
in pieces at a position of its own and renames the temporary file over the target. The
two names refer to numbered files, and a writer goes on writing to the file it opened
when a name has moved. Writers that take turns replace the target at their rename and at
no other moment. Writers that overlap share one temporary file.
-/

namespace FileReplacement

open Executions

variable {α : Type}

structure Writer (α : Type) where
  file : ℕ
  data : List α
  /-- How much of the data has been written. -/
  pos : ℕ

structure Disk (α : Type) where
  contents : ℕ → List α
  /-- Files with this number or a greater one have never been used. -/
  next : ℕ
  target : Option ℕ
  temp : Option ℕ
  writers : ℕ → Option (Writer α)

inductive Action (α : Type)
  | create (k : ℕ) (data : List α)
  | write (k n : ℕ)
  | rename (k : ℕ)
  | abandon (k : ℕ)
  /-- All writers are gone; the files stay. -/
  | crash

/-- `new` put at position `pos`; what lies between the end and `pos` is a gap. -/
def overwrite (gap : α) (old : List α) (pos : ℕ) (new : List α) : List α :=
  (old ++ List.replicate (pos - old.length) gap).take pos ++ new ++ old.drop (pos + new.length)

theorem overwrite_at_end (gap : α) (old new : List α) :
    overwrite gap old old.length new = old ++ new := by
  rw [overwrite, Nat.sub_self, List.replicate_zero, List.append_nil, List.take_length,
    List.drop_eq_nil_of_le (Nat.le_add_right _ _), List.append_nil]

theorem overwrite_front (gap : α) (old new : List α) :
    overwrite gap old 0 new = new ++ old.drop new.length := by
  rw [overwrite, List.take_zero, List.nil_append, Nat.zero_add]

namespace Writer

def piece (w : Writer α) (n : ℕ) : List α := (w.data.drop w.pos).take n

def advance (w : Writer α) (n : ℕ) : Writer α := { w with pos := w.pos + (w.piece n).length }

def Done (w : Writer α) : Prop := w.data.length ≤ w.pos

instance : DecidablePred (Done (α := α)) := fun _ => Nat.decLe _ _

theorem take_advance (w : Writer α) (n : ℕ) :
    w.data.take (w.advance n).pos = w.data.take w.pos ++ w.piece n := by
  have hpiece : (w.data.drop w.pos).take (w.piece n).length = w.piece n := by
    rw [piece, List.length_take, ← List.take_take, List.take_length]
  rw [advance, List.take_add, hpiece]

theorem advance_pos_le (w : Writer α) (n : ℕ) (h : w.pos ≤ w.data.length) :
    (w.advance n).pos ≤ w.data.length := by
  have hlength : (w.piece n).length ≤ w.data.length - w.pos := by
    rw [piece, List.length_take, List.length_drop]
    exact Nat.min_le_right _ _
  change w.pos + (w.piece n).length ≤ w.data.length
  omega

end Writer

namespace Disk

def read (d : Disk α) : Option (List α) := d.target.map d.contents

def setWriter (d : Disk α) (k : ℕ) (w : Option (Writer α)) : Disk α :=
  { d with writers := Function.update d.writers k w }

/-- The file the temporary name leads to, or the next unused one. -/
def tempFile (d : Disk α) : ℕ := d.temp.getD d.next

def createTemp (d : Disk α) (k : ℕ) (data : List α) : Disk α :=
  { d with
    contents := Function.update d.contents d.tempFile []
    next := max d.next (d.tempFile + 1)
    temp := some d.tempFile
    writers := Function.update d.writers k (some ⟨d.tempFile, data, 0⟩) }

def writePiece (gap : α) (d : Disk α) (k : ℕ) (w : Writer α) (n : ℕ) : Disk α :=
  { d with
    contents := Function.update d.contents w.file
      (overwrite gap (d.contents w.file) w.pos (w.piece n))
    writers := Function.update d.writers k (some (w.advance n)) }

/-- A rename without a temporary file fails. -/
def renameTemp (d : Disk α) (k : ℕ) : Disk α :=
  match d.temp with
  | none => d.setWriter k none
  | some f => { d.setWriter k none with target := some f, temp := none }

def step (gap : α) (d : Disk α) : Action α → Disk α
  | .create k data =>
    match d.writers k with
    | some _ => d
    | none => d.createTemp k data
  | .write k n =>
    match d.writers k with
    | none => d
    | some w => d.writePiece gap k w n
  | .rename k =>
    match d.writers k with
    | none => d
    | some w => if w.Done then d.renameTemp k else d
  | .abandon k => d.setWriter k none
  | .crash => { d with writers := fun _ => none }

end Disk

/-- The target alone: it is replaced as a whole by a rename. -/
structure Shelf (α : Type) where
  stored : Option (List α)
  /-- The data of each writer and how much of it has been written. -/
  jobs : ℕ → Option (List α × ℕ)

namespace Shelf

def setJob (s : Shelf α) (k : ℕ) (job : Option (List α × ℕ)) : Shelf α :=
  { s with jobs := Function.update s.jobs k job }

/-- After a job is set, a job is that one or one of before, of another writer. -/
theorem jobs_of_setJob {s : Shelf α} {k k' : ℕ} {job : Option (List α × ℕ)} {x : List α × ℕ}
    (h : (s.setJob k job).jobs k' = some x) :
    k' = k ∧ job = some x ∨ k' ≠ k ∧ s.jobs k' = some x := by
  change Function.update s.jobs k job k' = some x at h
  rw [Function.update_apply] at h
  split_ifs at h with hk
  · exact Or.inl ⟨hk, h⟩
  · exact Or.inr ⟨hk, h⟩

def step (s : Shelf α) : Action α → Shelf α
  | .create k data =>
    match s.jobs k with
    | some _ => s
    | none => s.setJob k (some (data, 0))
  | .write k n =>
    match s.jobs k with
    | none => s
    | some (data, pos) => s.setJob k (some (data, pos + ((data.drop pos).take n).length))
  | .rename k =>
    match s.jobs k with
    | none => s
    | some (data, pos) =>
      if data.length ≤ pos then { s.setJob k none with stored := some data } else s
  | .abandon k => s.setJob k none
  | .crash => { s with jobs := fun _ => none }

end Shelf

namespace Disk

def shelf (d : Disk α) : Shelf α :=
  ⟨d.read, fun k => (d.writers k).map fun w => (w.data, w.pos)⟩

/-- The names lead to two used files, and a writer is alone on the temporary one. -/
structure Sound (d : Disk α) : Prop where
  target : ∀ f, d.target = some f → f < d.next
  temp : ∀ f, d.temp = some f → f < d.next
  apart : ∀ f, d.target = some f → d.temp ≠ some f
  alone : ∀ k k', d.writers k ≠ none → d.writers k' ≠ none → k = k'
  written : ∀ k w, d.writers k = some w → d.temp = some w.file ∧
    d.contents w.file = w.data.take w.pos ∧ w.pos ≤ w.data.length

def TakesTurns (d : Disk α) : Action α → Prop
  | .create _ _ => ∀ k, d.writers k = none
  | _ => True

end Disk

end FileReplacement
