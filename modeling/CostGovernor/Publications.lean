import CostGovernor.AcceptedPrices

/-!
# What the state file holds of acknowledged prices

A snapshot may replace one that was copied after it. While this does not happen, the file
holds every acknowledged price. Replacing the file and replying are one step here: what
holds from the replacement on holds from the reply on.
-/

namespace CostGovernor

open Executions KeyedLog Coordinator

theorem Governor.mem_storeObservation_of_mem {obs o : PriceObservation} {os : List PriceObservation}
    (h : o ∈ os) : o ∈ storeObservation obs os ∨ o.id = obs.id := by
  by_cases hid : o.id = obs.id
  · exact Or.inr hid
  · refine Or.inl ((mem_storeObservation_iff obs os o).2 (Or.inr ?_))
    exact (List.mem_eraseP_of_neg (by simpa using hid)).2 h

namespace Publications

variable {first : ℕ} {p : Publications} {e : Event}

/-- A publication is accepted and its session is about to persist it. -/
theorem Ordered.accept (h : Ordered first p) (s : ℕ) (obs : PriceObservation)
    (hwrap : p.now.gov.schedule.generation.value.toNat + 1 < 2 ^ 64) :
    Ordered first
      { now := { p.now with gov := p.now.gov.published obs }.setSession s (.persisting .ok)
        published := p.published ++ [obs]
        handling := Function.update p.handling s (some p.published.length)
        acknowledged := p.acknowledged } := by
  have hmemory := h.memory
  refine ⟨?_, ?_, ?_, ?_⟩
  · rw [List.length_append]
    refine ⟨by simp, ?_, ?_⟩
    · change (p.now.gov.schedule.generation.succ).value.toNat = _
      rw [Id.succ_toNat, Nat.mod_eq_of_lt hwrap, hmemory.generation]
      rfl
    · exact hmemory.covers.push (fun o ho => Governor.mem_storeObservation_of_mem ho)
        (Governor.mem_storeObservation_self _ _)
  · intro s' k hk
    change Function.update p.handling s _ s' = some k at hk
    change _ ∧ ((∃ st, Function.update p.now.sessions s _ s' = _) ∨
      ∃ snap, (Function.update p.now.sessions s _ s').pending = _)
    rw [List.length_append]
    by_cases hs : s' = s
    · subst hs
      rw [Function.update_self] at hk ⊢
      cases hk
      exact ⟨by simp, Or.inl ⟨_, rfl⟩⟩
    · rw [Function.update_of_ne hs] at hk ⊢
      obtain ⟨hlt, hbusy⟩ := h.busy s' k hk
      exact ⟨by omega, hbusy⟩
  · intro s' snap hsnap
    change (Function.update p.now.sessions s _ s').pending = some snap at hsnap
    change ∃ n, _ ∧ ∀ k, Function.update p.handling s _ s' = some k → k < n
    by_cases hs : s' = s
    · subst hs
      rw [Function.update_self] at hsnap
      cases hsnap
    · rw [Function.update_of_ne hs] at hsnap ⊢
      obtain ⟨n, htaken, hk⟩ := h.copied s' snap hsnap
      exact ⟨n, htaken.append [obs], hk⟩
  · refine h.file.imp_right ?_
    rintro ⟨snap, n, hfile, hn, htaken, hk⟩
    exact ⟨snap, n, hfile, hn, htaken.append [obs], hk⟩

/-- A session acknowledges, and the file is from after the snapshot was copied. -/
theorem Ordered.reply (h : Ordered first p) {s : ℕ} {st : Status} {snap : DurableSnapshot}
    (hst : p.now.sessions s = .saving st snap) {file : Option DurableSnapshot}
    (hfile : ∀ n, TakenAt first p.published n snap.priceSchedule → HoldsFrom first p n file) :
    Ordered first
      { now := { p.now with file := file }.finish s (.status st)
        published := p.published
        handling := Function.update p.handling s none
        acknowledged := p.acknowledged ++ (p.handling s).toList } := by
  have hpending : (p.now.sessions s).pending = some snap := by rw [hst]; rfl
  obtain ⟨n, htaken, hhandled⟩ := h.copied s snap hpending
  refine ⟨h.memory, ?_, ?_, ?_⟩
  · intro s' k hk
    change Function.update p.handling s none s' = some k at hk
    change _ ∧ ((∃ st, Function.update p.now.sessions s _ s' = _) ∨
      ∃ snap, (Function.update p.now.sessions s _ s').pending = _)
    by_cases hs : s' = s
    · rw [hs, Function.update_self] at hk
      cases hk
    · rw [Function.update_of_ne hs] at hk ⊢
      exact h.busy s' k hk
  · intro s' snap' hsnap'
    change (Function.update p.now.sessions s _ s').pending = some snap' at hsnap'
    change ∃ n, _ ∧ ∀ k, Function.update p.handling s none s' = some k → k < n
    by_cases hs : s' = s
    · rw [hs, Function.update_self] at hsnap'
      cases hsnap'
    · rw [Function.update_of_ne hs] at hsnap' ⊢
      exact h.copied s' snap' hsnap'
  · obtain ⟨snap', m, hnow, hnm, htaken', hacked⟩ := hfile n htaken
    refine Or.inr ⟨snap', m, hnow, Nat.zero_le m, htaken', fun k hk => ?_⟩
    rcases List.mem_append.1 hk with hold | hnew
    · exact hacked k hold
    · exact (hhandled k (by simpa using hnew)).trans_le hnm

/-- A snapshot of a later generation was copied later. -/
theorem TakenAt.le_of_generation {n m : ℕ} {published : List PriceObservation}
    {s s' : PriceSchedule} (h : TakenAt first published n s) (h' : TakenAt first published m s')
    (hle : s.generation ≤ s'.generation) : n ≤ m := by
  have hgen := h.generation
  have hgen' := h'.generation
  rw [Id.le_iff_toNat_le] at hle
  omega

theorem Ordered.replaced (h : Ordered first p) {snap : DurableSnapshot}
    (horder : ∀ old, p.now.file = some old →
      old.priceSchedule.generation ≤ snap.priceSchedule.generation) {n : ℕ}
    (htaken : TakenAt first p.published n snap.priceSchedule) :
    HoldsFrom first p n (some snap) := by
  refine ⟨snap, n, rfl, le_rfl, htaken, fun k hk => ?_⟩
  obtain ⟨-, hnone⟩ | ⟨old, m, hfile, -, hold, hacked⟩ := h.file
  · rw [hnone] at hk
    cases hk
  · exact (hacked k hk).trans_le (hold.le_of_generation htaken (horder old hfile))

theorem Ordered.retained (h : Ordered first p) {snap old : DurableSnapshot}
    (hfile : p.now.file = some old)
    (horder : snap.priceSchedule.generation ≤ old.priceSchedule.generation) {n : ℕ}
    (htaken : TakenAt first p.published n snap.priceSchedule) :
    HoldsFrom first p n p.now.file := by
  obtain ⟨hnone, -⟩ | ⟨old', m, hfile', -, hold, hacked⟩ := h.file
  · rw [hnone] at hfile
    cases hfile
  · obtain rfl : old' = old := Option.some.inj (hfile'.symm.trans hfile)
    exact ⟨old', m, hfile', htaken.le_of_generation hold horder, hold, hacked⟩

/-- Every other step leaves publications, acknowledgements and the file alone. -/
theorem Ordered.quiet (h : Ordered first p) (haccept : p.now.accepting e = [])
    (hreply : p.now.replying e = false) : Ordered first { p with now := p.now.step e } := by
  have hschedule := step_schedule haccept
  have hmemory := h.memory
  refine ⟨?_, ?_, ?_, ?_⟩
  · change TakenAt first p.published p.published.length (p.now.step e).gov.schedule
    rw [hschedule]
    exact hmemory
  · intro s k hk
    obtain ⟨hlt, hbusy⟩ := h.busy s k hk
    refine ⟨hlt, ?_⟩
    change (∃ st, (p.now.step e).sessions s = _) ∨ ∃ snap, ((p.now.step e).sessions s).pending = _
    rcases p.now.step_session e s with hsame | ⟨m, _, hidle, _⟩ | ⟨saved, rfl, _⟩
    · rw [hsame]
      exact hbusy
    · rw [hidle] at hbusy
      rcases hbusy with ⟨_, hno⟩ | ⟨_, hno⟩ <;> cases hno
    · rcases hbusy with ⟨st, hst⟩ | ⟨snap, hsnap⟩
      · refine Or.inr ⟨p.now.gov.snapshot, ?_⟩
        change ((p.now.proceed s saved (p.now.sessions s)).sessions s).pending = _
        rw [hst]
        change (Function.update p.now.sessions s _ s).pending = _
        rw [Function.update_self]
        rfl
      · rw [replying, hsnap] at hreply
        cases hreply
  · intro s snap hsnap
    rcases step_pending hsnap with hold | rfl
    · exact h.copied s snap hold
    · exact ⟨p.published.length, hmemory, fun k hk => (h.busy s k hk).1⟩
  · have hsame : (p.now.step e).file = p.now.file := by
      refine (p.now.step_change e).file ?_
      intro hsaves
      cases e with
      | message => exact hsaves
      | resume s saved =>
          obtain ⟨_, snap', hsnap'⟩ := hsaves
          rw [replying, hsnap'] at hreply
          cases hreply
    change (p.now.step e).file = none ∧ _ ∨ HoldsFrom first _ 0 (p.now.step e).file
    rw [hsame]
    exact h.file

theorem Ordered.step (h : Ordered first p) (horder : SavesInOrder p.now e) :
    Ordered first (p.step e) := by
  by_cases haccept : p.now.accepting e = []
  · cases hreply : p.now.replying e with
    | true =>
        obtain ⟨s, saved, st, snap, rfl, hst⟩ := replying_cases hreply
        have hpending : (p.now.sessions s).pending = some snap := by rw [hst]; rfl
        have hnow : p.now.step (.resume s saved) =
            { p.now with file := if saved then some snap else p.now.file }.finish s
              (.status st) := by
          change p.now.proceed s saved (p.now.sessions s) = _
          rw [hst]
          rfl
        have hfile : ∀ n, TakenAt first p.published n snap.priceSchedule →
            HoldsFrom first p n (if saved then some snap else p.now.file) := by
          intro n htaken
          cases saved with
          | true => exact h.replaced (horder.replaced s snap rfl hpending) htaken
          | false =>
              obtain ⟨old, hold, hle⟩ := horder.retained s snap rfl hpending
              exact h.retained hold hle htaken
        have hstep := h.reply hst hfile
        rw [← hnow] at hstep
        simpa [Publications.step, haccept, hreply, Event.session] using hstep
    | false => simpa [Publications.step, haccept, hreply] using h.quiet haccept hreply
  · have hwrap := horder.counted haccept
    obtain ⟨s, obs, rfl, hobs, hnow⟩ := accepting_cases haccept
    have hstep := h.accept s obs hwrap
    rw [← hnow] at hstep
    simpa [Publications.step, hobs, replying, Event.session] using hstep

theorem ordered_start (file : Option DurableSnapshot) :
    Ordered (boot file).gov.schedule.generation.value.toNat (start file) := by
  refine ⟨⟨le_rfl, rfl, covers_zero _ _⟩, fun s k hk => (nomatch hk), ?_, ?_⟩
  · intro s snap hsnap
    change ((boot file).sessions s).pending = some snap at hsnap
    rw [boot_sessions] at hsnap
    cases hsnap
  · cases file with
    | none => exact Or.inl ⟨rfl, rfl⟩
    | some snap =>
        exact Or.inr ⟨snap, 0, rfl, le_rfl, ⟨le_rfl, rfl, covers_zero _ _⟩, fun k hk => nomatch hk⟩

end Publications

open Publications

/-- In every run in which snapshots reach the file in the order of their generations, the
file holds every acknowledged price or a later one under its identity. -/
theorem acknowledged_prices_stay_in_file (file : Option DurableSnapshot) (es : List Event)
    (h : Along Coordinator.step SavesInOrder (boot file) es) :
    (run Publications.step (Publications.start file) es).FileHolds := by
  have h' : Along Publications.step (fun p e => SavesInOrder p.now e) (Publications.start file) es :=
    along_comap Publications.now (fun _ _ => rfl) h
  exact (run_invariant (I := Ordered (boot file).gov.schedule.generation.value.toNat)
    (fun _ _ hp hc => hp.step hc) (ordered_start file) h').fileHolds

def publishAlone : List Event :=
  [.message 0 (.publishPrice { id := ⟨1⟩, epoch := ⟨1⟩, amount := ⟨7⟩ }), .resume 0 true,
    .resume 0 true]

theorem acknowledged_prices_stay_in_file_publishAlone :
    let p := run Publications.step (Publications.start none) publishAlone
    p.acknowledged = [0] ∧ p.FileHolds := by
  refine ⟨rfl, acknowledged_prices_stay_in_file none publishAlone ⟨?_, ?_, ?_, trivial⟩⟩
  · exact ⟨fun _ => by decide, fun _ _ he => (nomatch he), fun _ _ he => (nomatch he)⟩
  · refine ⟨fun hno => absurd rfl hno, ?_, fun _ _ he => nomatch he⟩
    intro s snap he hsnap
    cases he
    cases hsnap
  · refine ⟨fun hno => absurd rfl hno, ?_, fun _ _ he => nomatch he⟩
    intro s snap he hsnap old hold
    cases hold

/-- A second session copies its snapshot first and replaces the file last. -/
def publishRace : List Event :=
  [.message 1 (.publishPrice { id := ⟨2⟩, epoch := ⟨1⟩, amount := ⟨3⟩ }), .resume 1 true] ++
    publishAlone ++ [.resume 1 true]

theorem acknowledged_price_lost_from_file :
    let p := run Publications.step (Publications.start none) publishRace
    p.acknowledged = [1, 0] ∧ (p.published[1]?).map PriceObservation.id = some ⟨1⟩ ∧
      p.now.file.map (fun snap => snap.priceSchedule.observations.map PriceObservation.id) =
        some [⟨2⟩] ∧ ¬ p.FileHolds := by
  refine ⟨rfl, rfl, rfl, fun h => ?_⟩
  obtain ⟨snap, o, j, o', hfile, ho, _, _, hid, hmem⟩ := h 1 (by decide)
  cases ho
  cases hfile
  revert hid
  rw [List.mem_singleton.1 hmem]
  decide

end CostGovernor
