import CostGovernor.CoordinatorSteps
import CostGovernor.Executions
import Mathlib.Data.List.Infix

/-!
# Coordinator incarnations

An incarnation starts on the state file its predecessors left, handles events and
crashes. It serves under one epoch, which reaches the file only with the first
save that completes. A successor of an incarnation that saved nothing starts from
the same file and serves under the same epoch again. An incarnation whose load
throws never serves and writes nothing, so it does not appear in the list.
-/

namespace CostGovernor

open Executions Coordinator

def startEpoch : Option DurableSnapshot → CoordinatorEpoch
  | none => ⟨1⟩
  | some snap => snap.epoch.succ

def Coordinator.Saves (c : Coordinator) : Event → Prop
  | .message _ _ => False
  | .resume s saved => saved = true ∧ ∃ snap, (c.sessions s).pending = some snap

def Persists (file : Option DurableSnapshot) (es : List Event) : Prop :=
  Sometimes Coordinator.step Saves (boot file) es

/-- The state file after an incarnation crashes. -/
def fileAfter (file : Option DurableSnapshot) (es : List Event) : Option DurableSnapshot :=
  (run Coordinator.step (boot file) es).file

def epochsIn (file : Option DurableSnapshot) (es : List Event) : List CoordinatorEpoch :=
  es.inits.map (fun seen => (run Coordinator.step (boot file) seen).gov.epoch)

def epochsServed : Option DurableSnapshot → List (List Event) → List (List CoordinatorEpoch)
  | _, [] => []
  | file, es :: rest => epochsIn file es :: epochsServed (fileAfter file es) rest

/-- Every epoch of an incarnation is greater than every epoch of the earlier ones. -/
def NeverReused (file : Option DurableSnapshot) (incarnations : List (List Event)) : Prop :=
  (epochsServed file incarnations).Pairwise
    (fun earlier later => ∀ e ∈ earlier, ∀ e' ∈ later, e < e')

/-- The governor is in the epoch `e`, and so is every snapshot on its way to the file. -/
structure Coordinator.Serving (e : CoordinatorEpoch) (c : Coordinator) : Prop where
  epoch : c.gov.epoch = e
  pending : ∀ s snap, (c.sessions s).pending = some snap → snap.epoch = e

def Coordinator.SavedUnder (e : CoordinatorEpoch) (c : Coordinator) : Prop :=
  ∃ snap, c.file = some snap ∧ snap.epoch = e

namespace Coordinator

theorem Serving.session {e : CoordinatorEpoch} {c c' : Coordinator} (h : Serving e c) {s : ℕ}
    {st : SessionState} (hsessions : c'.sessions = Function.update c.sessions s st)
    (hepoch : c'.gov.epoch = c.gov.epoch)
    (hnew : ∀ snap, st.pending = some snap → snap.epoch = e) : Serving e c' := by
  refine ⟨hepoch.trans h.epoch, ?_⟩
  rw [hsessions]
  intro s' snap hs'
  by_cases he : s' = s
  · rw [he, Function.update_self] at hs'
    exact hnew snap hs'
  · rw [Function.update_of_ne he] at hs'
    exact h.pending s' snap hs'

theorem Change.serving {e : CoordinatorEpoch} {c c' : Coordinator} {ev : Event}
    (hchange : Change c ev c') (h : Serving e c) : Serving e c' := by
  cases hchange with
  | same => exact h
  | quiet ev c' s st _ _ _ hnew hsessions _ _ hgov =>
      refine h.session hsessions hgov.epoch ?_
      intro snap hsnap
      rw [hnew.pending] at hsnap
      cases hsnap
  | snapshot s saved st hst =>
      refine h.session rfl rfl ?_
      intro snap hsnap
      rw [← Option.some.inj hsnap]
      exact h.epoch
  | save s saved st snap hst => exact h.session rfl rfl (fun _ hsnap => nomatch hsnap)
  | grant s budget gen epoch amount r g _ _ _ _ hepoch =>
      exact h.session rfl hepoch (fun _ hsnap => nomatch hsnap)
  | store => exact h.session rfl rfl (fun _ hsnap => nomatch hsnap)
  | copy => exact h.session rfl rfl (fun _ hsnap => nomatch hsnap)
  | settle s saved kind token r hst =>
      have hsteady := settleCall_steady c.gov kind r
      generalize settleCall c.gov kind r = x at hsteady ⊢
      obtain ⟨result, r', g⟩ := x
      cases result with
      | error e => exact h.session rfl hsteady.epoch (fun _ hsnap => nomatch hsnap)
      | ok st => exact h.session rfl hsteady.epoch (fun _ hsnap => nomatch hsnap)
  | putBack => exact h.session rfl rfl (fun _ hsnap => nomatch hsnap)

/-- Only a completed save writes the file. -/
theorem Change.file {c c' : Coordinator} {ev : Event} (hchange : Change c ev c')
    (hno : ¬ Saves c ev) : c'.file = c.file := by
  cases hchange with
  | quiet ev c' s st _ _ _ _ _ _ hfile _ => exact hfile
  | save s saved st snap hst =>
      cases saved with
      | false => rfl
      | true => exact absurd ⟨rfl, snap, by rw [hst]; rfl⟩ hno
  | settle s saved kind token r hst =>
      generalize settleCall c.gov kind r = x
      obtain ⟨result, r', g⟩ := x
      cases result <;> rfl
  | _ => rfl

/-- A completed save writes a snapshot of the epoch served. -/
theorem Saves.savedUnder {e : CoordinatorEpoch} {c : Coordinator} {ev : Event} (h : Serving e c)
    (hsaves : Saves c ev) : SavedUnder e (c.step ev) := by
  cases ev with
  | message => exact hsaves.elim
  | resume s saved =>
      obtain ⟨rfl, snap, hpending⟩ := hsaves
      refine ⟨snap, ?_, h.pending s snap hpending⟩
      change (c.proceed s true (c.sessions s)).file = some snap
      cases hst : c.sessions s with
      | saving st snap' =>
          rw [hst] at hpending
          exact hpending
      | _ =>
          rw [hst] at hpending
          cases hpending

theorem SavedUnder.step {e : CoordinatorEpoch} {c : Coordinator} {ev : Event} (h : Serving e c)
    (hsaved : SavedUnder e c) : SavedUnder e (c.step ev) := by
  by_cases hsaves : Saves c ev
  · exact hsaves.savedUnder h
  · obtain ⟨snap, hfile, hepoch⟩ := hsaved
    exact ⟨snap, ((c.step_change ev).file hsaves).trans hfile, hepoch⟩

theorem boot_serving (file : Option DurableSnapshot) : Serving (startEpoch file) (boot file) := by
  refine ⟨by cases file <;> rfl, ?_⟩
  intro s snap hs
  rw [boot_sessions] at hs
  cases hs

end Coordinator

theorem run_serving (file : Option DurableSnapshot) (es : List Event) :
    Serving (startEpoch file) (run Coordinator.step (boot file) es) :=
  run_preserves (I := Serving (startEpoch file)) (fun c ev h => (c.step_change ev).serving h)
    (boot_serving file) es

/-- A successor gets the next epoch after a save and the same epoch otherwise. -/
theorem startEpoch_fileAfter_of_persists {file : Option DurableSnapshot} {es : List Event}
    (h : Persists file es) : startEpoch (fileAfter file es) = (startEpoch file).succ := by
  have hsaved : SavedUnder (startEpoch file) (run Coordinator.step (boot file) es) :=
    run_reaches (I := Serving (startEpoch file)) (fun c ev hc => (c.step_change ev).serving hc)
      (fun c ev hc hs => Saves.savedUnder hc hs) (fun c ev hc hq => SavedUnder.step hc hq)
      (boot_serving file) h
  obtain ⟨snap, hfile, hepoch⟩ := hsaved
  rw [fileAfter, hfile, startEpoch, hepoch]

theorem startEpoch_fileAfter_of_not_persists {file : Option DurableSnapshot} {es : List Event}
    (h : ¬ Persists file es) : startEpoch (fileAfter file es) = startEpoch file := by
  have hfile : fileAfter file es = (boot file).file :=
    run_keeps (fun c ev hno => (c.step_change ev).file hno) h
  have hboot : (boot file).file = file := by cases file <;> rfl
  rw [hfile, hboot]

theorem mem_epochsIn_iff (file : Option DurableSnapshot) (es : List Event) (e : CoordinatorEpoch) :
    e ∈ epochsIn file es ↔ e = startEpoch file := by
  constructor
  · intro h
    obtain ⟨seen, _, rfl⟩ := List.mem_map.1 h
    exact (run_serving file seen).epoch
  · rintro rfl
    exact List.mem_map.2 ⟨[], by simp, (run_serving file []).epoch⟩

def startEpochs : Option DurableSnapshot → List (List Event) → List CoordinatorEpoch
  | _, [] => []
  | file, es :: rest => startEpoch file :: startEpochs (fileAfter file es) rest

theorem mem_startEpochs_iff (file : Option DurableSnapshot) (incarnations : List (List Event))
    (e : CoordinatorEpoch) :
    e ∈ startEpochs file incarnations ↔ ∃ served ∈ epochsServed file incarnations, e ∈ served := by
  induction incarnations generalizing file with
  | nil => simp [startEpochs, epochsServed]
  | cons es rest ih =>
      simp only [startEpochs, epochsServed, List.mem_cons, ih, exists_eq_or_imp, mem_epochsIn_iff]

theorem neverReused_iff_pairwise (file : Option DurableSnapshot) (incarnations : List (List Event)) :
    NeverReused file incarnations ↔ (startEpochs file incarnations).Pairwise (· < ·) := by
  induction incarnations generalizing file with
  | nil => simp [NeverReused, startEpochs, epochsServed]
  | cons es rest ih =>
      have ih' := ih (fileAfter file es)
      unfold NeverReused at ih' ⊢
      rw [epochsServed, startEpochs, List.pairwise_cons, List.pairwise_cons, ih']
      refine and_congr_left (fun _ => ?_)
      simp only [mem_epochsIn_iff, forall_eq, mem_startEpochs_iff]
      constructor
      · rintro h e ⟨served, hserved, he⟩
        exact h served hserved e he
      · exact fun h served hserved e he => h e ⟨served, hserved, he⟩

theorem startEpoch_lt_iff (file : Option DurableSnapshot) (es : List Event) :
    startEpoch file < startEpoch (fileAfter file es) ↔
      Persists file es ∧ (startEpoch file).value.toNat + 1 < 2 ^ 64 := by
  by_cases h : Persists file es
  · rw [startEpoch_fileAfter_of_persists h, Id.lt_iff_toNat_lt, Id.succ_toNat]
    have hlt := (startEpoch file).value.toNat_lt
    constructor
    · intro hless
      refine ⟨h, ?_⟩
      by_contra hwrap
      have hmax : (startEpoch file).value.toNat + 1 = 2 ^ 64 := by omega
      rw [hmax, Nat.mod_self] at hless
      omega
    · rintro ⟨_, hfits⟩
      rw [Nat.mod_eq_of_lt hfits]
      omega
  · rw [startEpoch_fileAfter_of_not_persists h]
    exact ⟨fun hless => absurd hless (lt_irrefl _), fun hboth => absurd hboth.1 h⟩

theorem isChain_startEpochs_iff (file : Option DurableSnapshot) (incarnations : List (List Event)) :
    (startEpochs file incarnations).IsChain (· < ·) ↔
      Along fileAfter Persists file incarnations.dropLast ∧
        (startEpoch file).value.toNat + (incarnations.length - 1) < 2 ^ 64 := by
  induction incarnations generalizing file with
  | nil => simpa [startEpochs, Along] using (startEpoch file).value.toNat_lt
  | cons es rest ih =>
      cases rest with
      | nil => simpa [startEpochs, Along] using (startEpoch file).value.toNat_lt
      | cons es' rest =>
          have ih' := ih (fileAfter file es)
          simp only [startEpochs, List.isChain_cons_cons, List.length_cons] at ih' ⊢
          rw [ih', startEpoch_lt_iff, List.dropLast_cons_cons]
          constructor
          · rintro ⟨⟨hsaves, hfits⟩, halong, hbound⟩
            rw [startEpoch_fileAfter_of_persists hsaves, Id.succ_toNat,
              Nat.mod_eq_of_lt hfits] at hbound
            exact ⟨⟨hsaves, halong⟩, by omega⟩
          · rintro ⟨⟨hsaves, halong⟩, hbound⟩
            have hfits : (startEpoch file).value.toNat + 1 < 2 ^ 64 := by omega
            refine ⟨⟨hsaves, hfits⟩, halong, ?_⟩
            rw [startEpoch_fileAfter_of_persists hsaves, Id.succ_toNat, Nat.mod_eq_of_lt hfits]
            omega

/-- Epochs are never reused exactly when every incarnation but the last completes a
save and the epoch counter does not wrap. -/
theorem epochs_never_reused_iff (file : Option DurableSnapshot) (incarnations : List (List Event)) :
    NeverReused file incarnations ↔
      Along fileAfter Persists file incarnations.dropLast ∧
        (startEpoch file).value.toNat + (incarnations.length - 1) < 2 ^ 64 := by
  rw [neverReused_iff_pairwise, ← List.isChain_iff_pairwise]
  exact isChain_startEpochs_iff file incarnations

def crashBeforeSave : List (List Event) :=
  [[.message 0 (.reserve ⟨1⟩ ⟨1⟩ ⟨1⟩ ⟨4⟩), .resume 0 true], []]

theorem epoch_served_by_two_incarnations :
    epochsServed none crashBeforeSave = [[⟨1⟩, ⟨1⟩, ⟨1⟩], [⟨1⟩]] ∧
      ¬ NeverReused none crashBeforeSave := by
  have hserved : epochsServed none crashBeforeSave = [[⟨1⟩, ⟨1⟩, ⟨1⟩], [⟨1⟩]] := rfl
  refine ⟨hserved, ?_⟩
  intro h
  rw [NeverReused, hserved] at h
  have hlt := (List.pairwise_cons.1 h).1 [⟨1⟩] (by simp) ⟨1⟩ (by simp) ⟨1⟩ (by simp)
  exact absurd hlt (lt_irrefl _)

end CostGovernor
