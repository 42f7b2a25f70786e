import CostGovernor.CoordinatorCalls
import CostGovernor.Incarnations
import CostGovernor.KeyedLog

/-!
# Publications that are accepted

A PUBLISH_PRICE handler publishes, copies the snapshot and then replaces the state
file outside the lock. Beside a run we record the accepted publications in order, which of
them a session is handling, and which were acknowledged.
-/

namespace CostGovernor

open Executions KeyedLog Coordinator

namespace Coordinator

def accepting (c : Coordinator) : Event → List PriceObservation
  | .message s (.publishPrice obs) =>
    match c.sessions s with
    | .idle => if (c.gov.publishPrice obs).1 = .ok then [obs] else []
    | _ => []
  | _ => []

def replying (c : Coordinator) : Event → Bool
  | .resume s _ => (c.sessions s).pending.isSome
  | .message _ _ => false

/-- No snapshot replaces one of a later price generation, one that does not reach the file
finds one there that is not older, and the generation does not wrap. -/
structure SavesInOrder (c : Coordinator) (e : Event) : Prop where
  counted : c.accepting e ≠ [] → c.gov.schedule.generation.value.toNat + 1 < 2 ^ 64
  replaced : ∀ s snap, e = .resume s true → (c.sessions s).pending = some snap →
    ∀ old, c.file = some old → old.priceSchedule.generation ≤ snap.priceSchedule.generation
  retained : ∀ s snap, e = .resume s false → (c.sessions s).pending = some snap →
    ∃ old, c.file = some old ∧ snap.priceSchedule.generation ≤ old.priceSchedule.generation

end Coordinator

structure Publications where
  now : Coordinator
  /-- The accepted publications in order. -/
  published : List PriceObservation := []
  /-- The position of the publication a session is handling. -/
  handling : ℕ → Option ℕ := fun _ => none
  /-- The positions of the publications that were acknowledged. -/
  acknowledged : List ℕ := []

namespace Publications

def start (file : Option DurableSnapshot) : Publications := { now := boot file }

def step (p : Publications) (e : Event) : Publications where
  now := p.now.step e
  published := p.published ++ p.now.accepting e
  handling := Function.update p.handling e.session
    (if p.now.accepting e ≠ [] then some p.published.length
      else if p.now.replying e then none else p.handling e.session)
  acknowledged :=
    if p.now.replying e then p.acknowledged ++ (p.handling e.session).toList else p.acknowledged

/-- The state file holds every acknowledged observation, or a later one published
under the same identity. -/
def FileHolds (p : Publications) : Prop :=
  ∀ k ∈ p.acknowledged, ∃ (snap : DurableSnapshot) (o : PriceObservation) (j : ℕ)
    (o' : PriceObservation), p.now.file = some snap ∧ p.published[k]? = some o ∧ k ≤ j ∧
      p.published[j]? = some o' ∧ o'.id = o.id ∧ o' ∈ snap.priceSchedule.observations

structure TakenAt (first : ℕ) (published : List PriceObservation) (n : ℕ) (s : PriceSchedule) :
    Prop where
  bound : n ≤ published.length
  generation : s.generation.value.toNat = first + n
  covers : Covers PriceObservation.id published n (· ∈ s.observations)

/-- A state file from after the first `n` publications at least, which has all those that
were acknowledged. -/
def HoldsFrom (first : ℕ) (p : Publications) (n : ℕ) (file : Option DurableSnapshot) : Prop :=
  ∃ snap m, file = some snap ∧ n ≤ m ∧ TakenAt first p.published m snap.priceSchedule ∧
    ∀ k ∈ p.acknowledged, k < m

structure Ordered (first : ℕ) (p : Publications) : Prop where
  memory : TakenAt first p.published p.published.length p.now.gov.schedule
  busy : ∀ s k, p.handling s = some k → k < p.published.length ∧
    ((∃ st, p.now.sessions s = .persisting st) ∨ ∃ snap, (p.now.sessions s).pending = some snap)
  copied : ∀ s snap, (p.now.sessions s).pending = some snap →
    ∃ n, TakenAt first p.published n snap.priceSchedule ∧ ∀ k, p.handling s = some k → k < n
  file : p.now.file = none ∧ p.acknowledged = [] ∨ HoldsFrom first p 0 p.now.file

theorem Ordered.fileHolds {first : ℕ} {p : Publications} (h : Ordered first p) : p.FileHolds := by
  intro k hk
  obtain ⟨-, hnone⟩ | ⟨snap, n, hfile, -, htaken, hacked⟩ := h.file
  · rw [hnone] at hk
    cases hk
  obtain ⟨o, j, o', ho, hkj, _, ho', hid, hmem⟩ := htaken.covers k (hacked k hk)
  exact ⟨snap, o, j, o', hfile, ho, hkj, ho', hid, hmem⟩

theorem TakenAt.append {first n : ℕ} {published : List PriceObservation} {s : PriceSchedule}
    (h : TakenAt first published n s) (more : List PriceObservation) :
    TakenAt first (published ++ more) n s := by
  refine ⟨?_, h.generation, h.covers.append more⟩
  have hbound := h.bound
  rw [List.length_append]
  omega

end Publications

namespace Coordinator

theorem governorCall_evidence {c : Coordinator} {e : Event} {op : Op}
    (h : c.governorCall e = some op) :
    (∀ s, op ≠ .setPriceSchedule s) ∧
      ∀ obs, op = .publishPrice obs → ∃ s, e = .message s (.publishPrice obs) ∧
        c.sessions s = .idle := by
  rcases governorCall_eq_some h with ⟨s, m, rfl, hidle, hcall⟩ | ⟨s, saved, rfl, hcall⟩
  · cases m with
    | publishPrice obs =>
        cases hcall
        exact ⟨by simp, fun _ hobs => ⟨s, by cases hobs; rfl, hidle⟩⟩
    | _ => cases hcall <;> exact ⟨by simp, by simp⟩
  · cases hst : c.sessions s with
    | copied kind token r =>
        rw [hst] at hcall
        cases kind <;> cases hcall <;> exact ⟨by simp, by simp⟩
    | _ =>
        rw [hst] at hcall
        cases hcall

/-- Only an accepted publication changes the prices. -/
theorem step_schedule {c : Coordinator} {e : Event} (h : c.accepting e = []) :
    (c.step e).gov.schedule = c.gov.schedule := by
  rw [step_gov]
  cases hcall : c.governorCall e with
  | none => rfl
  | some op =>
      obtain ⟨hnotset, hpublish⟩ := governorCall_evidence hcall
      have heffect := c.gov.exec_evidence op
      change (c.gov.apply op).schedule = _
      generalize c.gov.apply op = g at heffect ⊢
      cases heffect with
      | frame _ _ hsame => exact hsame.schedule
      | published obs hpub =>
          obtain ⟨s, rfl, hidle⟩ := hpublish obs rfl
          have hok := (c.gov.publishPrice_ok_iff obs).2 hpub
          simp [accepting, hidle, hok] at h
      | newSchedule s => exact absurd rfl (hnotset s)
      | _ => rfl

theorem accepting_cases {c : Coordinator} {e : Event} (h : c.accepting e ≠ []) :
    ∃ s obs, e = .message s (.publishPrice obs) ∧ c.accepting e = [obs] ∧
      c.step e = { c with gov := c.gov.published obs }.setSession s (.persisting .ok) := by
  cases e with
  | resume s saved => exact absurd rfl h
  | message s m =>
      cases m with
      | publishPrice obs =>
          by_cases hidle : c.sessions s = .idle
          · by_cases hpub : Governor.Publishable c.gov obs
            · have hresult := Governor.publishPrice_of_publishable hpub
              refine ⟨s, obs, rfl, by simp [accepting, hidle, hresult], ?_⟩
              rw [step_message_of_idle hidle]
              simp only [receive, afterWrite, hresult, if_true]
            · have hno : (c.gov.publishPrice obs).1 ≠ .ok :=
                fun hok => hpub ((c.gov.publishPrice_ok_iff obs).1 hok)
              simp [accepting, hidle, hno] at h
          · refine absurd ?_ h
            dsimp only [accepting]
            split
            · contradiction
            · rfl
      | _ => exact absurd rfl h

theorem replying_cases {c : Coordinator} {e : Event} (h : c.replying e = true) :
    ∃ s saved st snap, e = .resume s saved ∧ c.sessions s = .saving st snap := by
  cases e with
  | message s m => cases h
  | resume s saved =>
      cases hst : c.sessions s with
      | saving st snap => exact ⟨s, saved, st, snap, rfl, hst⟩
      | _ =>
          rw [replying, hst] at h
          cases h

end Coordinator

end CostGovernor
