import CostGovernor.AtomicReplacement
import CostGovernor.Deployments
import CostGovernor.RefusedFiles

/-!
# Saves that overlap

Nothing in the source makes saves take turns. Two that overlap write to one temporary file,
each at a position of its own, and can leave a file that no restart will load.
-/

namespace CostGovernor

open ByteStreams FileReplacement Executions SnapshotCodec Coordinator

namespace Deployment

/-- Two saves of which the second starts before the first has written. -/
def overlappingSaves (s t : ℕ) (a b : ByteString) : List DiskEvent :=
  [.openTemp s, .openTemp t, .writeTemp s a.length, .renameTemp s, .writeTemp t b.length,
    .renameTemp t]

section Overlap

variable {D : Deployment} {c : Coordinator}

theorem step_openTemp (hnow : D.now = some c) {s : ℕ} {st : Status} {snap : DurableSnapshot}
    {bytes : ByteString} (hst : c.sessions s = .saving st snap) (hbytes : encode snap = .ok bytes) :
    D.step (.openTemp s) = ⟨some c, D.disk.step 0 (.create s bytes)⟩ := by
  have hpending : (c.sessions s).pending = some snap := by
    rw [hst]
    rfl
  rw [Deployment.step, hnow]
  dsimp only [serve, openStep]
  rw [hpending]
  dsimp only
  rw [hbytes, hnow]
  rfl

theorem step_writeTemp (hnow : D.now = some c) (s n : ℕ) :
    D.step (.writeTemp s n) = ⟨some c, D.disk.step 0 (.write s n)⟩ := by
  rw [Deployment.step, hnow]
  dsimp only [serve]
  rw [hnow]
  rfl

theorem step_renameTemp (hnow : D.now = some c) {s : ℕ} {w : Writer UInt8}
    (hw : D.disk.writers s = some w) (hdone : w.Done) :
    D.step (.renameTemp s) =
      ⟨some (c.step (.resume s D.disk.temp.isSome)), D.disk.renameTemp s⟩ := by
  have hrename := Disk.step_rename 0 D.disk hw hdone
  rw [Deployment.step, hnow]
  dsimp only [serve, renameStep]
  rw [hw]
  dsimp only
  rw [if_pos hdone, act, hrename]

theorem step_crash (hnow : D.now = some c) :
    D.step .crash = ⟨reboot D.disk.read, D.disk.step 0 .crash⟩ := by
  rw [Deployment.step, hnow]
  rfl

/-- What the two saves leave: both handlers go on to their replies, and the file is the
second snapshot followed by the rest of the first. -/
theorem run_overlappingSaves (hnow : D.now = some c) (hwriters : ∀ k, D.disk.writers k = none)
    {s t : ℕ} (hne : s ≠ t) {sta stb : Status} {a b : DurableSnapshot} {bytesA bytesB : ByteString}
    (ha : c.sessions s = .saving sta a) (hb : c.sessions t = .saving stb b)
    (hA : encode a = .ok bytesA) (hB : encode b = .ok bytesB) :
    ∃ d : Disk UInt8, run Deployment.step D (overlappingSaves s t bytesA bytesB) =
        ⟨some ((c.step (.resume s true)).step (.resume t false)), d⟩ ∧
      d.read = some (bytesB ++ bytesA.drop bytesB.length) := by
  obtain ⟨f, d₁, hrun, hs₁, ht₁, htemp₁, hcontent₁⟩ :=
    Disk.exists_first hwriters (0 : UInt8) hne bytesA bytesB
  obtain ⟨d₂, hstep, ht₂, htemp₂, hread₂⟩ :=
    Disk.exists_second (0 : UInt8) hne bytesB ht₁ htemp₁ hcontent₁
  have hfirst : run Deployment.step D [.openTemp s, .openTemp t, .writeTemp s bytesA.length] =
      ⟨some c, d₁⟩ := by
    rw [run_cons, step_openTemp hnow ha hA, run_cons, step_openTemp rfl hb hB, run_cons,
      step_writeTemp rfl, run_nil]
    exact congrArg (Deployment.mk (some c)) hrun
  have hsecond : (⟨some c, d₁⟩ : Deployment).step (.renameTemp s) =
      ⟨some (c.step (.resume s true)), d₁.renameTemp s⟩ := by
    have hrename := step_renameTemp (D := ⟨some c, d₁⟩) rfl hs₁
      (Disk.done_advance_all f bytesA)
    rw [hrename, htemp₁]
    rfl
  have hthird : (⟨some (c.step (.resume s true)), d₁.renameTemp s⟩ : Deployment).step
      (.writeTemp t bytesB.length) = ⟨some (c.step (.resume s true)), d₂⟩ := by
    rw [step_writeTemp rfl]
    exact congrArg (Deployment.mk _) hstep
  have hlast := step_renameTemp (D := ⟨some (c.step (.resume s true)), d₂⟩) rfl ht₂
    (Disk.done_advance_all f bytesB)
  refine ⟨d₂.renameTemp t, ?_, ?_⟩
  · have hsplit : overlappingSaves s t bytesA bytesB =
        [.openTemp s, .openTemp t, .writeTemp s bytesA.length] ++
          [.renameTemp s, .writeTemp t bytesB.length, .renameTemp t] := rfl
    rw [hsplit, run_append, hfirst, run_cons, hsecond, run_cons, hthird, run_cons, hlast, htemp₂]
    rfl
  · rw [Disk.renameTemp, htemp₂]
    exact hread₂

end Overlap

end Deployment

open Deployment in
/-- From every state in which two sessions are about to save, the second with the shorter
encoding, and no save is under way, their saves can be interleaved so that both handlers
send the status of an accepted write and the file left behind stops the next process at
its start. -/
theorem overlapping_saves_can_stop_restarts (D : Deployment) (c : Coordinator)
    (hnow : D.now = some c) (hwriters : ∀ k, D.disk.writers k = none) (s t : ℕ) (hne : s ≠ t)
    (sta stb : Status) (a b : DurableSnapshot) (bytesA bytesB : ByteString)
    (ha : c.sessions s = .saving sta a) (hb : c.sessions t = .saving stb b)
    (hA : encode a = .ok bytesA) (hB : encode b = .ok bytesB)
    (hshorter : bytesB.length < bytesA.length) (hsize : bytesA.length < 2 ^ 64) :
    ∃ evs c', (run Deployment.step D evs).now = some c' ∧
      c'.replies = c.replies ++ [(s, .status sta), (t, .status stb)] ∧
      (run Deployment.step D (evs ++ [.crash])).now = none := by
  obtain ⟨d, hrun, hread⟩ := run_overlappingSaves hnow hwriters hne ha hb hA hB
  refine ⟨overlappingSaves s t bytesA bytesB, _, congrArg Deployment.now hrun, ?_, ?_⟩
  · have ht : (c.step (.resume s true)).sessions t = .saving stb b := by
      rw [Coordinator.step, ha]
      exact (Function.update_of_ne hne.symm _ _).trans hb
    have hfirst : (c.step (.resume s true)).replies = c.replies ++ [(s, .status sta)] := by
      rw [Coordinator.step, ha]
      rfl
    rw [Coordinator.step, ht]
    change (c.step (.resume s true)).replies ++ [(t, .status stb)] = _
    rw [hfirst, List.append_assoc]
    rfl
  · have hrest : bytesA.drop bytesB.length ≠ [] := by
      intro hnil
      have := List.drop_eq_nil_iff.1 hnil
      omega
    obtain ⟨payload, -, hframed⟩ := (encode_eq_ok_iff b bytesB).1 hB
    have hrefused : decode (bytesB ++ bytesA.drop bytesB.length) =
        .error (corrupt "trailing garbage") := by
      subst hframed
      refine decode_append hrest ?_
      rw [List.length_append, List.length_drop]
      omega
    rw [run_append, hrun, run_cons, step_crash rfl, run_nil]
    change reboot d.read = none
    rw [hread, reboot, hrefused]

def twoPublishers : List Event :=
  [.message 1 (.publishPrice { id := ⟨1⟩, epoch := ⟨1⟩ }), .resume 1 true,
    .message 0 (.publishPrice { id := ⟨2⟩, epoch := ⟨1⟩ }), .resume 0 true]

open Deployment in
theorem overlapping_saves_can_stop_restarts_twoPublishers :
    ∃ evs, (run Deployment.step start
      (twoPublishers.map .event ++ evs ++ [.crash])).now = none := by
  obtain ⟨bytesB, hB⟩ : ∃ bytes,
      encode (run Coordinator.step (boot none) (twoPublishers.take 1)).gov.snapshot = .ok bytes :=
    ⟨_, rfl⟩
  obtain ⟨bytesA, hA⟩ : ∃ bytes,
      encode (run Coordinator.step (boot none) (twoPublishers.take 3)).gov.snapshot = .ok bytes :=
    ⟨_, rfl⟩
  have hlengths : bytesB.length < bytesA.length ∧ bytesA.length < 2 ^ 64 := by
    cases hA
    cases hB
    decide +kernel
  obtain ⟨evs, -, -, -, hnone⟩ := overlapping_saves_can_stop_restarts
    (run Deployment.step start (twoPublishers.map .event))
    (run Coordinator.step (boot none) twoPublishers) rfl (fun _ => rfl) 0 1 (by decide) .ok .ok
    _ _ bytesA bytesB rfl rfl hA hB hlengths.1 hlengths.2
  refine ⟨evs, ?_⟩
  rw [List.append_assoc, run_append]
  exact hnone

end CostGovernor
