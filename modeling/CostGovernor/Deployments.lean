import CostGovernor.Acknowledgements
import CostGovernor.FileReplacement
import CostGovernor.Incarnations
import CostGovernor.SaveLoad

/-!
# A coordinator and its disk

`save` writes an encoded snapshot to a temporary file beside the state file and renames
it. A deployment is a coordinator process with the disk under it: each save of a session
is cut into its calls, and a crash may come between any two of them. `Presents` relates it
to the coordinator with a state file that is replaced as a whole.
-/

namespace CostGovernor

open ByteStreams FileReplacement Executions SnapshotCodec Coordinator

namespace Coordinator

section Sessions

variable {c : Coordinator} {s : ℕ} {snap : DurableSnapshot}

theorem saving_of_pending (h : (c.sessions s).pending = some snap) :
    ∃ st, c.sessions s = .saving st snap := by
  cases hst : c.sessions s with
  | saving st snap' =>
      rw [hst] at h
      cases h
      exact ⟨st, rfl⟩
  | _ =>
      rw [hst] at h
      cases h

/-- A session stays at its save while the others go on. -/
theorem pending_step (h : (c.sessions s).pending = some snap) {e : Event}
    (he : ∀ saved, e ≠ .resume s saved) : ((c.step e).sessions s).pending = some snap := by
  obtain ⟨st, hst⟩ := saving_of_pending h
  rcases c.step_session e s with hsame | ⟨m, -, hidle, -⟩ | ⟨saved, rfl, -⟩
  · rw [hsame]
    exact h
  · rw [hst] at hidle
    cases hidle
  · exact absurd rfl (he saved)

theorem step_save (h : (c.sessions s).pending = some snap) (saved : Bool) :
    (c.step (.resume s saved)).file = if saved then some snap else c.file := by
  obtain ⟨st, hst⟩ := saving_of_pending h
  rw [step, hst]
  rfl

theorem not_saves_of_plain (h : (c.sessions s).pending = none) (saved : Bool) :
    ¬ c.Saves (.resume s saved) := by
  rintro ⟨-, snap, hsnap⟩
  rw [h] at hsnap
  cases hsnap

end Sessions

end Coordinator

/-- A coordinator process and its disk. A process that cannot load its state file ends. -/
structure Deployment where
  now : Option Coordinator
  disk : Disk UInt8

inductive DiskEvent
  | event (e : Event)
  | openTemp (s : ℕ)
  | writeTemp (s n : ℕ)
  | renameTemp (s : ℕ)
  /-- Opening, writing or flushing fails. -/
  | failSave (s : ℕ)
  | crash

def reboot : Option ByteString → Option Coordinator
  | none => some (boot none)
  | some bytes =>
    match decode bytes with
    | .error _ => none
    | .ok snap => some (boot (some snap))

namespace Deployment

def act (D : Deployment) (a : Action UInt8) : Disk UInt8 := D.disk.step 0 a

/-- A session that is about to save takes its next step with the end of the save. -/
def eventStep (D : Deployment) (c : Coordinator) (e : Event) : Deployment :=
  match e with
  | .message _ _ => { D with now := some (c.step e) }
  | .resume s _ =>
    match (c.sessions s).pending with
    | some _ => D
    | none => { D with now := some (c.step e) }

/-- An encoder that throws ends the handler before the file is opened. -/
def openStep (D : Deployment) (c : Coordinator) (s : ℕ) : Deployment :=
  match (c.sessions s).pending with
  | none => D
  | some snap =>
    match encode snap with
    | .error _ => { D with now := some (c.fail s) }
    | .ok bytes => { D with disk := D.act (.create s bytes) }

def renameStep (D : Deployment) (c : Coordinator) (s : ℕ) : Deployment :=
  match D.disk.writers s with
  | none => D
  | some w =>
    if w.Done then
      { now := some (c.step (.resume s D.disk.temp.isSome)), disk := D.act (.rename s) }
    else D

def failStep (D : Deployment) (c : Coordinator) (s : ℕ) : Deployment :=
  match (c.sessions s).pending with
  | none => D
  | some _ => { now := some (c.step (.resume s false)), disk := D.act (.abandon s) }

def serve (D : Deployment) (c : Coordinator) : DiskEvent → Deployment
  | .event e => D.eventStep c e
  | .openTemp s => D.openStep c s
  | .writeTemp s n => { D with disk := D.act (.write s n) }
  | .renameTemp s => D.renameStep c s
  | .failSave s => D.failStep c s
  | .crash => { now := reboot D.disk.read, disk := D.act .crash }

def step (D : Deployment) (ev : DiskEvent) : Deployment :=
  match D.now with
  | some c => D.serve c ev
  | none => D

end Deployment

/-- The coordinator with a state file that is replaced as a whole. -/
def Coordinator.live (c : Coordinator) : Life → Coordinator
  | .event e => c.step e
  | .crash => boot c.file

namespace Deployment

def livesOf (D : Deployment) (c : Coordinator) : DiskEvent → List Life
  | .event (.message s m) => [.event (.message s m)]
  | .event (.resume s saved) =>
    match (c.sessions s).pending with
    | some _ => []
    | none => [.event (.resume s saved)]
  | .openTemp _ | .writeTemp _ _ => []
  | .renameTemp s =>
    match D.disk.writers s with
    | none => []
    | some w => if w.Done then [.event (.resume s true)] else []
  | .failSave s =>
    match (c.sessions s).pending with
    | none => []
    | some _ => [.event (.resume s false)]
  | .crash => [.crash]

def lives : Deployment → List DiskEvent → List Life
  | _, [] => []
  | D, ev :: evs =>
    (match D.now with
      | some c => D.livesOf c ev
      | none => []) ++ lives (D.step ev) evs

def start : Deployment where
  now := some (boot none)
  disk := ⟨fun _ => [], 0, none, none, fun _ => none⟩

/-- A save starts when no other is under way, with a snapshot the decoder takes. -/
def Orderly (D : Deployment) : DiskEvent → Prop
  | .openTemp s => (∀ k, D.disk.writers k = none) ∧
    ∀ c snap, D.now = some c → (c.sessions s).pending = some snap → snap.WithinLimits
  | _ => True

def Holds (read : Option ByteString) : Option DurableSnapshot → Prop
  | none => read = none
  | some snap => snap.WithinLimits ∧ ∃ bytes, encode snap = .ok bytes ∧ read = some bytes

/-- The deployment is the coordinator `c`, its file and the saves its sessions are at. -/
structure Presents (D : Deployment) (c : Coordinator) : Prop where
  now : D.now = some c
  sound : D.disk.Sound
  file : Holds D.disk.shelf.stored c.file
  saving : ∀ s data pos, D.disk.shelf.jobs s = some (data, pos) →
    ∃ snap, (c.sessions s).pending = some snap ∧ snap.WithinLimits ∧ encode snap = .ok data

theorem Holds.reboot {read : Option ByteString} {file : Option DurableSnapshot}
    (h : Holds read file) : reboot read = some (boot file) := by
  cases file with
  | none =>
      rw [show read = none from h]
      rfl
  | some snap =>
      obtain ⟨hlimits, bytes, hbytes, rfl⟩ := h
      rw [CostGovernor.reboot, (decode_eq_ok_iff hbytes).2 hlimits]

end Deployment

end CostGovernor
