import CostGovernor.Identities

/-!
# Identities of interventions over the lives of a process

The counter of the intervention identities is in memory and starts at one in every
process, while the interventions are in the state file. As long as every file that is
loaded holds only identities the counter has passed, and the counter has not wrapped to
zero, a proposal gets an identity nothing is stored under.
-/

namespace CostGovernor

open Executions

/-- A call, or the end of the process and the start of the next one on the same file. -/
inductive LifeEvent
  | call (c : Call)
  | restart (now : Int64)

/-- The identity the proposal was assigned belongs to no stored intervention, the
proposal is what is stored under it, and the other interventions are as before. -/
structure Governor.StoredAsNew (g : Governor) (i assigned : CostIntervention) (g' : Governor) :
    Prop where
  unused : ∀ other ∈ g.interventions.values, other.id ≠ assigned.id
  stored : g'.interventions.find? assigned.id = some assigned
  proposed : assigned.kind = i.kind ∧ assigned.lifecycle = .proposed
  others : ∀ id, id ≠ assigned.id → g'.interventions.find? id = g.interventions.find? id

namespace Process

def live (p : Process) : LifeEvent → Process
  | .call c => p.step c
  | .restart now => { p with gov := Governor.fresh now }

def savedInterventions (p : Process) : List InterventionEntry :=
  match p.file with
  | none => []
  | some bytes =>
    match SnapshotCodec.decode bytes with
    | .error _ => []
    | .ok snap => snap.interventions

/-- A load brings back identities below the counter only, and a proposal finds a counter
that has not wrapped. -/
def CounterAhead (p : Process) : LifeEvent → Prop
  | .call .load => p.gov.store = true → p.gov.nextIntervention ≠ 0 →
    ∀ e ∈ p.savedInterventions, e.id < ⟨p.gov.nextIntervention⟩
  | .call (.write (.proposeIntervention _)) => p.gov.nextIntervention ≠ 0
  | _ => True

/-- Every proposal that is accepted gets an identity of its own. -/
def AssignsNewIdentity (p : Process) : LifeEvent → Prop
  | .call (.write (.proposeIntervention i)) => ∀ assigned g',
    p.gov.proposeIntervention i = (.ok, assigned, g') → p.gov.StoredAsNew i assigned g'
  | _ => True

end Process

/-- Every intervention is stored under its identity, which a counter that has not wrapped
has passed. -/
structure Governor.Numbered (g : Governor) : Prop where
  keyed : g.interventions.KeyedBy CostIntervention.id
  passed : g.nextIntervention ≠ 0 → ∀ id i, g.interventions.find? id = some i →
    id < ⟨g.nextIntervention⟩

namespace Governor

theorem numbered_fresh (now : Int64) : (fresh now).Numbered :=
  ⟨HashedMap.keyedBy_empty _, fun _ _ _ h => by cases h⟩

variable {g : Governor}

theorem Numbered.unused (h : g.Numbered) (hcounter : g.nextIntervention ≠ 0) :
    g.interventions.find? ⟨g.nextIntervention⟩ = none := by
  cases hfound : g.interventions.find? ⟨g.nextIntervention⟩ with
  | none => rfl
  | some i => exact absurd (h.passed hcounter _ i hfound) (lt_irrefl _)

theorem Numbered.storedAsNew (h : g.Numbered) (hcounter : g.nextIntervention ≠ 0)
    {i assigned : CostIntervention} {st : Status} {g' : Governor}
    (hpropose : g.proposeIntervention i = (st, assigned, g')) :
    g.StoredAsNew i assigned g' := by
  unfold proposeIntervention at hpropose
  cases hpropose
  have hfind : ∀ id v, (g.interventions.emplace ⟨g.nextIntervention⟩ v).find? id =
      if id = ⟨g.nextIntervention⟩ then some v else g.interventions.find? id := by
    intro id v
    rw [HashedMap.find?_emplace]
    simp only [h.unused hcounter, and_true]
  refine ⟨fun other hother hid => ?_, ?_, ⟨rfl, rfl⟩, fun id hid => ?_⟩
  · obtain ⟨id, hfound⟩ := (g.interventions.mem_values_iff other).1 hother
    rw [← h.keyed id other hfound, hid, h.unused hcounter] at hfound
    cases hfound
  · exact (hfind _ _).trans (if_pos rfl)
  · exact (hfind _ _).trans (if_neg hid)

theorem toNat_add_one_of_ne_zero {n : UInt64} (h : n + 1 ≠ 0) : (n + 1).toNat = n.toNat + 1 := by
  have hbound := n.toNat_lt
  have hsum : (n + 1).toNat = (n.toNat + 1) % 2 ^ 64 := UInt64.toNat_add n 1
  have hnonzero : (n + 1).toNat ≠ 0 := fun hzero => h (UInt64.toNat_inj.1 hzero)
  omega

theorem Numbered.propose (h : g.Numbered) (hcounter : g.nextIntervention ≠ 0)
    (i : CostIntervention) : (g.proposeIntervention i).2.2.Numbered := by
  refine ⟨h.keyed.emplace rfl, fun hroom id j hj => ?_⟩
  have hnext : (g.nextIntervention + 1).toNat = g.nextIntervention.toNat + 1 :=
    toNat_add_one_of_ne_zero hroom
  rw [Id.lt_iff_toNat_lt]
  change id.value.toNat < (g.nextIntervention + 1).toNat
  rw [hnext]
  unfold proposeIntervention at hj
  dsimp only at hj
  rw [HashedMap.find?_emplace] at hj
  split_ifs at hj with hk
  · rw [hk.1]
    exact Nat.lt_succ_self _
  · exact Nat.lt_succ_of_lt ((Id.lt_iff_toNat_lt _ _).1 (h.passed hcounter id j hj))

theorem Numbered.apply (h : g.Numbered) {op : Op}
    (hcounter : ∀ i, op = .proposeIntervention i → g.nextIntervention ≠ 0) :
    (g.apply op).Numbered := by
  cases g.exec_interventions op with
  | frame hmap hnext => exact ⟨hmap ▸ h.keyed, hmap ▸ hnext ▸ h.passed⟩
  | propose i hop hg' => exact hg' ▸ h.propose (hcounter i hop) i
  | advance id i i' hfound hmap hnext hid =>
      refine ⟨hmap ▸ h.keyed.set (hid.trans (h.keyed id i hfound)), ?_⟩
      rw [hmap, hnext]
      intro hwrapped id' j hj
      rw [HashedMap.find?_set] at hj
      split_ifs at hj with hk
      · rw [hk]
        exact h.passed hwrapped id i hfound
      · exact h.passed hwrapped id' j hj

theorem numbered_restore {snap : DurableSnapshot}
    (hsaved : g.nextIntervention ≠ 0 → ∀ e ∈ snap.interventions,
      e.id < (⟨g.nextIntervention⟩ : InterventionId)) :
    (g.restore snap).Numbered := by
  refine ⟨(g.keyed_restore snap).interventions, fun hcounter id i hi => ?_⟩
  unfold restore at hi ⊢
  dsimp only at hi ⊢
  rw [HashedMap.find?_foldl_emplace, HashedMap.find?_empty, Option.none_or] at hi
  obtain ⟨e, he, _⟩ := Option.map_eq_some_iff.1 hi
  have hid : e.id = id := by simpa using List.find?_some he
  exact hid ▸ hsaved hcounter e (List.mem_of_find?_eq_some he)

end Governor

namespace Process

theorem savedInterventions_of_decode {p : Process} {bytes : ByteString} {snap : DurableSnapshot}
    (hfile : p.file = some bytes) (hsnap : SnapshotCodec.decode bytes = .ok snap) :
    p.savedInterventions = snap.interventions := by
  simp only [savedInterventions, hfile, hsnap]

theorem numbered_live {p : Process} (h : p.gov.Numbered) {e : LifeEvent} (hahead : p.CounterAhead e) :
    (p.live e).gov.Numbered := by
  cases e with
  | restart now => exact Governor.numbered_fresh now
  | call c =>
      cases c with
      | write op =>
          refine h.apply (fun i hop => ?_)
          subst hop
          exact hahead
      | load =>
          change (p.gov.load p.file).2.Numbered
          have hcases := p.gov.load_cases p.file
          generalize p.gov.load p.file = x at hcases ⊢
          cases hcases with
          | refused => exact h
          | restored bytes snap hstore hfile hsnap =>
              apply Governor.numbered_restore
              rw [← savedInterventions_of_decode hfile hsnap]
              exact hahead hstore
      | _ => exact h

theorem assignsNewIdentity_of_numbered {p : Process} (h : p.gov.Numbered) {e : LifeEvent}
    (hahead : p.CounterAhead e) : p.AssignsNewIdentity e := by
  cases e with
  | restart now => trivial
  | call c =>
      cases c with
      | write op =>
          cases op with
          | proposeIntervention i => exact fun _ _ hpropose => h.storedAsNew hahead hpropose
          | _ => trivial
      | _ => trivial

end Process

/-- Over any lives of a process on one state file: while the counter is ahead of what
is loaded, every proposal gets an identity of its own and is what is stored under it. -/
theorem proposals_get_new_identities (now : Int64) (file : Option ByteString)
    (events : List LifeEvent)
    (h : Along Process.live Process.CounterAhead { gov := Governor.fresh now, file := file } events) :
    Along Process.live Process.AssignsNewIdentity { gov := Governor.fresh now, file := file }
      events :=
  along_of_invariant (fun _ _ hn hc => Process.numbered_live hn hc)
    (fun _ _ hn hc => Process.assignsNewIdentity_of_numbered hn hc) (Governor.numbered_fresh now) h

def oneLife : List LifeEvent :=
  [.call (.write .setStatePath), .call (.write (.proposeIntervention { kind := .defer })),
    .call (.persist true), .call .load, .call (.write (.proposeIntervention { kind := .reject }))]

theorem proposals_get_new_identities_oneLife :
    Along Process.live Process.AssignsNewIdentity { gov := Governor.fresh 0 } oneLife := by
  refine proposals_get_new_identities 0 none oneLife ⟨trivial, ?_, trivial, ?_, ?_, trivial⟩
  · change (1 : UInt64) ≠ 0
    decide
  · intro _ _
    decide +kernel
  · change Governor.nextIntervention _ ≠ 0
    decide +kernel

def twoLives : Process :=
  run Process.live { gov := Governor.fresh 0 }
    [.call (.write .setStatePath), .call (.write (.proposeIntervention { kind := .defer })),
      .call (.persist true), .restart 0, .call (.write .setStatePath), .call .load]

theorem proposal_reuses_loaded_identity :
    (twoLives.gov.interventions.find? ⟨1⟩).map CostIntervention.kind = some .defer ∧
      (twoLives.gov.proposeIntervention { kind := .reject }).1 = .ok ∧
      (twoLives.gov.proposeIntervention { kind := .reject }).2.1.id = ⟨1⟩ ∧
      ((twoLives.gov.proposeIntervention { kind := .reject }).2.2.interventions.find? ⟨1⟩).map
        CostIntervention.kind = some .defer := by
  decide +kernel

end CostGovernor
