import CostGovernor.AtomicReplacement
import CostGovernor.Deployments

/-!
# Saves that take turns

While the saves of different sessions take turns, a deployment is the coordinator with a
state file that is replaced as a whole: a save takes effect at its rename or not at all,
and every crash finds a file that loads.
-/

namespace CostGovernor

open ByteStreams FileReplacement Executions SnapshotCodec Coordinator

namespace Deployment

section Steps

variable {D : Deployment} {c : Coordinator}

/-- A step that leaves the disk and the sessions that save alone. -/
theorem Presents.event (h : D.Presents c) {e : Event} (hsaves : ¬ c.Saves e)
    (hother : ∀ s snap, (c.sessions s).pending = some snap → ∀ saved, e ≠ .resume s saved) :
    Presents { D with now := some (c.step e) } (c.step e) := by
  refine ⟨rfl, h.sound, ?_, fun s data pos hjob => ?_⟩
  · rw [(c.step_change e).file hsaves]
    exact h.file
  · obtain ⟨snap, hpending, hlimits, hdata⟩ := h.saving s data pos hjob
    exact ⟨snap, pending_step hpending (hother s snap hpending), hlimits, hdata⟩

/-- The other sessions go on saving what they saved. -/
theorem Presents.saving_step (h : D.Presents c) {s k pos : ℕ} {data : ByteString} (hk : k ≠ s)
    (hjob : D.disk.shelf.jobs k = some (data, pos)) (saved : Bool) :
    ∃ snap, ((c.step (.resume s saved)).sessions k).pending = some snap ∧ snap.WithinLimits ∧
      encode snap = .ok data := by
  obtain ⟨snap, hpending, hlimits, hdata⟩ := h.saving k data pos hjob
  refine ⟨snap, pending_step hpending (fun saved' he => ?_), hlimits, hdata⟩
  cases he
  exact hk rfl

theorem Presents.openTemp (h : D.Presents c) {s : ℕ} {snap : DurableSnapshot} {bytes : ByteString}
    (hnone : ∀ k, D.disk.writers k = none) (hpending : (c.sessions s).pending = some snap)
    (hlimits : snap.WithinLimits) (hbytes : encode snap = .ok bytes) :
    Presents { D with disk := D.act (.create s bytes) } c := by
  obtain ⟨hsound, hshelf⟩ :=
    Disk.step_shelf h.sound 0 (show D.disk.TakesTurns (.create s bytes) from hnone)
  have hfree : D.disk.shelf.jobs s = none := Option.map_eq_none_iff.2 (hnone s)
  rw [Shelf.step, hfree] at hshelf
  refine ⟨h.now, hsound, ?_, fun k data pos hjob => ?_⟩
  · exact (congrArg (fun x => Holds x c.file) (congrArg Shelf.stored hshelf)).mpr h.file
  · rcases Shelf.jobs_of_setJob (hshelf ▸ hjob) with ⟨rfl, hnew⟩ | ⟨-, hold⟩
    · cases hnew
      exact ⟨snap, hpending, hlimits, hbytes⟩
    · exact h.saving k data pos hold

theorem Presents.writeTemp (h : D.Presents c) (s n : ℕ) :
    Presents { D with disk := D.act (.write s n) } c := by
  obtain ⟨hsound, hshelf⟩ :=
    Disk.step_shelf h.sound 0 (show D.disk.TakesTurns (.write s n) from trivial)
  rw [Shelf.step] at hshelf
  cases hown : D.disk.shelf.jobs s with
  | none =>
      rw [hown] at hshelf
      exact ⟨h.now, hsound, hshelf ▸ h.file, hshelf ▸ h.saving⟩
  | some job =>
      rw [hown] at hshelf
      refine ⟨h.now, hsound, ?_, fun k data pos hjob => ?_⟩
      · exact (congrArg (fun x => Holds x c.file) (congrArg Shelf.stored hshelf)).mpr h.file
      · rcases Shelf.jobs_of_setJob (hshelf ▸ hjob) with ⟨rfl, hnew⟩ | ⟨-, hold⟩
        · cases hnew
          exact h.saving k job.1 job.2 hown
        · exact h.saving k data pos hold

/-- The rename is the moment of the save. -/
theorem Presents.renameTemp (h : D.Presents c) {s : ℕ} {w : Writer UInt8}
    (hw : D.disk.writers s = some w) (hdone : w.Done) :
    Presents { now := some (c.step (.resume s D.disk.temp.isSome)), disk := D.act (.rename s) }
      (c.step (.resume s true)) := by
  obtain ⟨hsound, hshelf⟩ :=
    Disk.step_shelf h.sound 0 (show D.disk.TakesTurns (.rename s) from trivial)
  have hown : D.disk.shelf.jobs s = some (w.data, w.pos) := Option.map_eq_some_iff.2 ⟨w, hw, rfl⟩
  obtain ⟨snap, hpending, hlimits, hdata⟩ := h.saving s w.data w.pos hown
  rw [Shelf.step, hown] at hshelf
  dsimp only at hshelf
  rw [if_pos (show w.data.length ≤ w.pos from hdone)] at hshelf
  refine ⟨by rw [(h.sound.written s w hw).1]; rfl, hsound, ?_, fun k data pos hjob => ?_⟩
  · rw [step_save hpending]
    exact ⟨hlimits, w.data, hdata, congrArg Shelf.stored hshelf⟩
  · rcases Shelf.jobs_of_setJob (congrFun (congrArg Shelf.jobs hshelf) k ▸ hjob) with
      ⟨-, hgone⟩ | ⟨hk, hold⟩
    · cases hgone
    · exact h.saving_step hk hold true

theorem Presents.failSave (h : D.Presents c) {s : ℕ} {snap : DurableSnapshot}
    (hpending : (c.sessions s).pending = some snap) :
    Presents { now := some (c.step (.resume s false)), disk := D.act (.abandon s) }
      (c.step (.resume s false)) := by
  obtain ⟨hsound, hshelf⟩ :=
    Disk.step_shelf h.sound 0 (show D.disk.TakesTurns (.abandon s) from trivial)
  refine ⟨rfl, hsound, ?_, fun k data pos hjob => ?_⟩
  · rw [step_save hpending]
    exact (congrArg (fun x => Holds x c.file) (congrArg Shelf.stored hshelf)).mpr h.file
  · rcases Shelf.jobs_of_setJob (hshelf ▸ hjob) with ⟨-, hgone⟩ | ⟨hk, hold⟩
    · cases hgone
    · exact h.saving_step hk hold false

theorem Presents.crash (h : D.Presents c) :
    Presents { now := reboot D.disk.read, disk := D.act .crash } (boot c.file) := by
  obtain ⟨hsound, -⟩ := Disk.step_shelf h.sound 0 (show D.disk.TakesTurns .crash from trivial)
  have hfile : (boot c.file).file = c.file := by
    cases c.file <;> rfl
  refine ⟨h.file.reboot, hsound, ?_, fun s data pos hjob => nomatch hjob⟩
  rw [hfile]
  exact h.file

/-- One step of an orderly deployment is what it is to the coordinator. -/
theorem Presents.step (h : D.Presents c) {ev : DiskEvent} (hev : D.Orderly ev) :
    (D.step ev).Presents (run Coordinator.live c (D.livesOf c ev)) := by
  rw [Deployment.step, h.now]
  cases ev with
  | event e =>
      cases e with
      | message s m => exact h.event (fun hno => hno) (fun _ _ _ _ he => nomatch he)
      | resume s saved =>
          dsimp only [serve, eventStep, livesOf]
          cases hpending : (c.sessions s).pending with
          | some snap => exact h
          | none =>
              refine h.event (not_saves_of_plain hpending saved) (fun s' snap hsnap saved' he => ?_)
              cases he
              rw [hpending] at hsnap
              cases hsnap
  | openTemp s =>
      dsimp only [serve, openStep, livesOf]
      cases hpending : (c.sessions s).pending with
      | none => exact h
      | some snap =>
          have hlimits := hev.2 c snap h.now hpending
          obtain ⟨bytes, hbytes⟩ := encode_of_withinLimits hlimits
          dsimp only
          rw [hbytes]
          exact h.openTemp hev.1 hpending hlimits hbytes
  | writeTemp s n => exact h.writeTemp s n
  | renameTemp s =>
      dsimp only [serve, renameStep, livesOf]
      cases hw : D.disk.writers s with
      | none => exact h
      | some w =>
          dsimp only
          by_cases hdone : w.Done
          · rw [if_pos hdone, if_pos hdone]
            exact h.renameTemp hw hdone
          · rw [if_neg hdone, if_neg hdone]
            exact h
  | failSave s =>
      dsimp only [serve, failStep, livesOf]
      cases hpending : (c.sessions s).pending with
      | none => exact h
      | some snap => exact h.failSave hpending
  | crash => exact h.crash

theorem Presents.run (h : D.Presents c) {evs : List DiskEvent}
    (hevs : Along Deployment.step Orderly D evs) :
    (Executions.run Deployment.step D evs).Presents
      (Executions.run Coordinator.live c (D.lives evs)) := by
  induction evs generalizing D c with
  | nil => exact h
  | cons ev evs ih =>
      have hstep := ih (h.step hevs.1) hevs.2
      rw [lives, h.now]
      dsimp only
      rw [run_append]
      exact hstep

end Steps

theorem start_presents : start.Presents (boot none) := by
  refine ⟨rfl, ⟨?_, ?_, ?_, ?_, ?_⟩, rfl, ?_⟩
  · exact fun _ h => nomatch h
  · exact fun _ h => nomatch h
  · exact fun _ h => nomatch h
  · exact fun k _ h => absurd (show start.disk.writers k = none from rfl) h
  · exact fun _ _ h => nomatch h
  · exact fun _ _ _ h => nomatch h

end Deployment

open Deployment in
/-- While saves take turns and snapshots stay within the limits of the decoder, a deployment
that is cut by crashes at any moments, also in the middle of a save, is a coordinator whose
state file is replaced as a whole: every restart loads it, and the bytes on disk always
decode to it. -/
theorem orderly_saves_are_atomic (evs : List DiskEvent)
    (horderly : Along Deployment.step Orderly start evs) :
    (run Deployment.step start evs).now = some (run live (boot none) (start.lives evs)) ∧
      ((run live (boot none) (start.lives evs)).file = none →
        (run Deployment.step start evs).disk.read = none) ∧
      ∀ snap, (run live (boot none) (start.lives evs)).file = some snap →
        ∃ bytes, (run Deployment.step start evs).disk.read = some bytes ∧
          decode bytes = .ok snap := by
  have hrun := start_presents.run horderly
  have hfile := hrun.file
  refine ⟨hrun.now, fun hnone => ?_, fun snap hsnap => ?_⟩
  · rw [hnone] at hfile
    exact hfile
  · rw [hsnap] at hfile
    obtain ⟨hlimits, bytes, hbytes, hread⟩ := hfile
    exact ⟨bytes, hread, (decode_eq_ok_iff hbytes).2 hlimits⟩

def saveCut : List DiskEvent :=
  [.event (.message 0 (.publishPrice { epoch := ⟨1⟩ })), .event (.resume 0 true), .openTemp 0,
    .writeTemp 0 7, .crash]

open Deployment in
theorem orderly_saves_are_atomic_saveCut :
    (run Deployment.step start saveCut).now =
      some (run live (boot none) (start.lives saveCut)) := by
  refine (orderly_saves_are_atomic saveCut ⟨trivial, trivial, ⟨?_, ?_⟩, trivial, trivial,
    trivial⟩).1
  · exact fun _ => rfl
  · intro c snap hc hsnap
    cases hc
    cases hsnap
    exact ⟨by decide, by decide, by decide, by decide, by decide, by decide, by decide⟩

end CostGovernor
