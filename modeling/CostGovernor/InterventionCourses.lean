import CostGovernor.EvidenceEffects
import CostGovernor.InterventionIds

/-!
# The course of an intervention

An intervention is proposed, authorized, acknowledged and verified. `Course` relates the
milestones it has passed to its record, and `Moved` says what a call that moves one on can
do.
-/

namespace CostGovernor

open Executions

/-- A call on an intervention that succeeded, with the time the governor took from its
clock. -/
inductive Milestone
  | proposed (i : CostIntervention) (now : Int64)
  | authorized
  | acknowledged (now : Int64)
  | verified (now : Int64)
  deriving DecidableEq

namespace CostIntervention

def filed (i : CostIntervention) (id : InterventionId) (now : Int64) : CostIntervention :=
  { i with id := id, generation := ⟨1⟩, lifecycle := .proposed, createdAtMs := now }

def authorize (i : CostIntervention) : CostIntervention := { i with lifecycle := .authorized }

def acknowledge (i : CostIntervention) (now : Int64) : CostIntervention :=
  { i with lifecycle := .acknowledged, acknowledgedAtMs := now }

def verify (i : CostIntervention) (now : Int64) : CostIntervention :=
  { i with lifecycle := .effective, verifiedAtMs := now }

end CostIntervention

/-- The trails an intervention can have and the record each leaves behind. -/
inductive Course (id : InterventionId) : List Milestone → Option CostIntervention → Prop
  | unused : Course id [] none
  | proposed (i : CostIntervention) (created : Int64) :
      Course id [.proposed i created] (some (i.filed id created))
  | authorized (i : CostIntervention) (created : Int64) :
      Course id [.proposed i created, .authorized] (some (i.filed id created).authorize)
  | acknowledged (i : CostIntervention) (created acked : Int64) :
      Course id [.proposed i created, .authorized, .acknowledged acked]
        (some ((i.filed id created).authorize.acknowledge acked))
  | verified (i : CostIntervention) (created acked checked : Int64) :
      Course id [.proposed i created, .authorized, .acknowledged acked, .verified checked]
        (some (((i.filed id created).authorize.acknowledge acked).verify checked))

namespace Governor

def milestone (id : InterventionId) (g : Governor) : Op → Option Milestone
  | .proposeIntervention i =>
      if (g.proposeIntervention i).2.1.id = id then some (.proposed i g.now) else none
  | .authorizeIntervention id' gen =>
      if id' = id ∧ (g.authorizeIntervention id' gen).1 = .ok then some .authorized else none
  | .acknowledgeIntervention id' gen =>
      if id' = id ∧ (g.acknowledgeIntervention id' gen).1 = .ok then some (.acknowledged g.now)
      else none
  | .verifyIntervention id' gen post =>
      if id' = id ∧ (g.verifyIntervention id' gen post).1 = .effective then
        some (.verified g.now)
      else none
  | _ => none

def trail (id : InterventionId) (g : Governor) (ops : List Op) : List Milestone :=
  observed Governor.apply (milestone id) g ops

end Governor

section Calls

variable {id : InterventionId} {log : List Milestone}

/-- Every record is of the first generation. -/
theorem Course.generation {i : CostIntervention} (h : Course id log (some i)) :
    i.generation = ⟨1⟩ := by
  cases h <;> rfl

theorem Course.lifecycle {i : CostIntervention} (h : Course id log (some i)) :
    (i.lifecycle = .proposed ↔ log.length = 1) ∧ (i.lifecycle = .authorized ↔ log.length = 2) ∧
      (i.lifecycle = .acknowledged ↔ log.length = 3) ∧ i.lifecycle ≠ .dispatched := by
  cases h <;> simp [CostIntervention.filed, CostIntervention.authorize,
    CostIntervention.acknowledge, CostIntervention.verify]

theorem Course.authorize {i : CostIntervention} (h : Course id log (some i))
    (hstage : i.lifecycle = .proposed) : Course id (log ++ [.authorized]) (some i.authorize) := by
  cases h with
  | proposed i created => exact .authorized i created
  | _ => cases hstage

theorem Course.acknowledge {i : CostIntervention} (h : Course id log (some i)) (now : Int64)
    (hstage : i.lifecycle = .authorized) :
    Course id (log ++ [.acknowledged now]) (some (i.acknowledge now)) := by
  cases h with
  | authorized i created => exact .acknowledged i created now
  | _ => cases hstage

theorem Course.verify {i : CostIntervention} (h : Course id log (some i)) (now : Int64)
    (hstage : i.lifecycle = .acknowledged) :
    Course id (log ++ [.verified now]) (some (i.verify now)) := by
  cases h with
  | acknowledged i created acked => exact .verified i created acked now
  | _ => cases hstage

structure Course.Accepts (log : List Milestone) (id : InterventionId) (g : Governor) : Prop where
  authorize : ∀ gen, (g.authorizeIntervention id gen).1 = .ok ↔ gen = ⟨1⟩ ∧ log.length = 1
  acknowledge : ∀ gen, (g.acknowledgeIntervention id gen).1 = .ok ↔ gen = ⟨1⟩ ∧ log.length = 2
  verify : ∀ gen post, (g.verifyIntervention id gen post).1 = .effective ↔
    gen = ⟨1⟩ ∧ post ≠ [] ∧ log.length = 3

theorem Course.length_of_none (h : Course id log none) : log.length = 0 := by
  cases h
  rfl

end Calls

section Steps

namespace Governor

variable (g : Governor) (id : InterventionId) (gen : InterventionGeneration)

/-- A call that moves an intervention on: it fails and writes nothing, because the record is
missing, of another generation or at another stage, or the evidence is, or it succeeds and
stores the next record. -/
inductive Moved (evidence : Prop) (stage : InterventionLifecycle → Prop)
    (next : CostIntervention → CostIntervention) : Prop → Governor → Prop
  | failed (ok : Prop) (hno : ¬ ok)
      (hcause : ∀ i, g.interventions.find? id = some i → i.generation = gen → evidence →
        ¬ stage i.lifecycle) : Moved evidence stage next ok g
  | moved (ok : Prop) (hok : ok) (i : CostIntervention) (hfound : g.interventions.find? id = some i)
      (hgen : i.generation = gen) (hevidence : evidence) (hstage : stage i.lifecycle) :
      Moved evidence stage next ok { g with interventions := g.interventions.set id (next i) }

section Failures

variable {g id gen} {evidence ok : Prop} {stage : InterventionLifecycle → Prop}
  {next : CostIntervention → CostIntervention}

theorem Moved.of_missing (hfound : g.interventions.find? id = none) (hno : ¬ ok) :
    g.Moved id gen evidence stage next ok g := by
  refine .failed ok hno fun i hi => ?_
  rw [hfound] at hi
  cases hi

theorem Moved.of_refused {i : CostIntervention} (hfound : g.interventions.find? id = some i)
    (hno : ¬ ok) (hcause : i.generation = gen → evidence → ¬ stage i.lifecycle) :
    g.Moved id gen evidence stage next ok g := by
  refine .failed ok hno fun i' hi' => ?_
  rw [hfound] at hi'
  cases hi'
  exact hcause

end Failures

theorem authorizeIntervention_moved :
    g.Moved id gen True (· = .proposed) CostIntervention.authorize
      ((g.authorizeIntervention id gen).1 = .ok) (g.authorizeIntervention id gen).2 := by
  unfold authorizeIntervention
  cases hfound : g.interventions.find? id with
  | none => exact .of_missing hfound fun hok => nomatch hok
  | some i =>
      dsimp only
      split_ifs with hgen hstage
      · exact .of_refused hfound (fun hok => nomatch hok) fun h => absurd h hgen
      · exact .of_refused hfound (fun hok => nomatch hok) fun _ _ => hstage
      · exact .moved _ rfl i hfound (not_not.1 hgen) trivial (not_not.1 hstage)

theorem acknowledgeIntervention_moved :
    g.Moved id gen True (fun stage => stage = .authorized ∨ stage = .dispatched)
      (·.acknowledge g.now) ((g.acknowledgeIntervention id gen).1 = .ok)
      (g.acknowledgeIntervention id gen).2 := by
  unfold acknowledgeIntervention
  cases hfound : g.interventions.find? id with
  | none => exact .of_missing hfound fun hok => nomatch hok
  | some i =>
      dsimp only
      split_ifs with hgen hstage
      · exact .of_refused hfound (fun hok => nomatch hok) fun h => absurd h hgen
      · exact .of_refused hfound (fun hok => nomatch hok) fun _ _ => not_or.2 hstage
      · rw [← not_or, not_not] at hstage
        exact .moved _ rfl i hfound (not_not.1 hgen) trivial hstage

theorem verifyIntervention_moved (post : List CostEvidence) :
    g.Moved id gen (post ≠ []) (fun stage => stage = .acknowledged ∨ stage = .dispatched)
      (·.verify g.now) ((g.verifyIntervention id gen post).1 = .effective)
      (g.verifyIntervention id gen post).2 := by
  unfold verifyIntervention
  cases hfound : g.interventions.find? id with
  | none => exact .of_missing hfound fun hok => nomatch hok
  | some i =>
      dsimp only
      split_ifs with hgen hpost hstage
      · exact .of_refused hfound (fun hok => nomatch hok) fun h => absurd h hgen
      · exact .of_refused hfound (fun hok => nomatch hok) fun _ h =>
          absurd (List.isEmpty_iff.1 hpost) h
      · exact .of_refused hfound (fun hok => nomatch hok) fun _ _ => not_or.2 hstage
      · rw [← not_or, not_not] at hstage
        exact .moved _ rfl i hfound (not_not.1 hgen)
          (fun hnil => hpost (List.isEmpty_iff.2 hnil)) hstage

end Governor

end Steps

end CostGovernor
