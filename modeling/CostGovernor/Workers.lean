import CostGovernor.EnumBytes
import CostGovernor.Publications
import CostGovernor.RecoveredBudgets
import CostGovernor.WithheldDecisions

/-!
# Workers and a recovered coordinator

A worker process says HELLO, publishes two prices and then pings. It states the first epoch
in what it publishes and does not look at the epoch it is welcomed with, so a coordinator
that has recovered refuses it. Prices are then never refreshed and every evaluation answers
REVALIDATE.
-/

namespace CostGovernor

open Executions Coordinator

section Worker

inductive WorkerKind
  | a
  | b
  deriving DecidableEq

namespace WorkerKind

def worker : WorkerKind → WorkerId
  | a => ⟨1⟩
  | b => ⟨2⟩

def device : WorkerKind → DeviceId
  | a => ⟨1⟩
  | b => ⟨2⟩

/-- The boot given on the command line, unless it is zero. -/
def boot (kind : WorkerKind) (bootOverride : UInt64) : WorkerBootId :=
  if bootOverride ≠ 0 then ⟨bootOverride⟩
  else match kind with
    | a => ⟨10⟩
    | b => ⟨20⟩

def observation (kind : PriceKind) (dev : DeviceId) (perUnit : MoneyMicros) (boot : WorkerBootId)
    (worker : WorkerId) (now : Int64) : PriceObservation :=
  { id := ⟨1000 + (PriceKind.byte kind).toUInt64 * 100 + dev.value⟩
    kind := kind
    device := dev
    amount := perUnit
    currency := defaultCurrency
    label := .policy
    provenance := .configuredPolicy
    observedAtMs := now
    epoch := ⟨1⟩
    worker := worker
    boot := boot }

def now : Int64 := 1000000000

def prices (kind : WorkerKind) (bootOverride : UInt64) : List PriceObservation :=
  let publish := fun priceKind perUnit =>
    observation priceKind kind.device (MoneyMicros.fromMicros perUnit) (kind.boot bootOverride)
      kind.worker now
  match kind with
  | a => [publish .acceleratorTime 5000, publish .transfer 1000]
  | b => [publish .acceleratorTime 1000, publish .transfer 10000]

/-- What a worker sends, with the pings of one that stays. -/
def messages (kind : WorkerKind) (bootOverride : UInt64) (pings : ℕ) : List Message :=
  .hello kind.worker (kind.boot bootOverride) ::
    ((kind.prices bootOverride).map .publishPrice ++ List.replicate pings .unknown)

theorem epoch_of_mem_prices {kind : WorkerKind} {bootOverride : UInt64} {obs : PriceObservation}
    (h : obs ∈ kind.prices bootOverride) : obs.epoch = ⟨1⟩ := by
  cases kind <;>
  · rcases List.mem_cons.1 h with rfl | h
    · rfl
    · rw [List.mem_singleton.1 h]
      rfl

theorem mem_prices_of_mem_messages {kind : WorkerKind} {bootOverride : UInt64} {pings : ℕ}
    {obs : PriceObservation} (h : .publishPrice obs ∈ kind.messages bootOverride pings) :
    obs ∈ kind.prices bootOverride := by
  rcases List.mem_cons.1 h with hhello | h
  · cases hhello
  rcases List.mem_append.1 h with hprice | hping
  · obtain ⟨o, ho, heq⟩ := List.mem_map.1 hprice
    cases heq
    exact ho
  · cases List.eq_of_mem_replicate hping

end WorkerKind

/-- Prices are published by workers only, of whatever kinds and boots; the other messages
are anybody's. -/
def PublishedByWorkers (l : Life) : Prop :=
  ∀ s obs, l = .event (.message s (.publishPrice obs)) →
    ∃ (kind : WorkerKind) (bootOverride : UInt64) (pings : ℕ),
      .publishPrice obs ∈ kind.messages bootOverride pings

end Worker

namespace Coordinator

/-- Only an accepted publication ends the revalidation. -/
theorem step_revalidationNeeded {c : Coordinator} {e : Event} (h : c.accepting e = [])
    (hneeded : c.gov.revalidationNeeded = true) : (c.step e).gov.revalidationNeeded = true := by
  rw [step_gov]
  cases hcall : c.governorCall e with
  | none => exact hneeded
  | some op =>
      obtain ⟨hnotset, hpublish⟩ := governorCall_evidence hcall
      have heffect := c.gov.exec_evidence op
      change (c.gov.apply op).revalidationNeeded = true
      generalize c.gov.apply op = g at heffect ⊢
      cases heffect with
      | frame _ _ hsame => rw [hsame.revalidationNeeded, hneeded]
      | published obs hpub =>
          obtain ⟨s, rfl, hidle⟩ := hpublish obs rfl
          have hok := (c.gov.publishPrice_ok_iff obs).2 hpub
          simp [accepting, hidle, hok] at h
      | newSchedule s => exact absurd rfl (hnotset s)
      | newEpoch => rfl
      | newPolicy p => rfl
      | _ => exact hneeded

end Coordinator

section Unrefreshed

/-- The coordinator has recovered the prices of `S` and no price was published since. -/
structure Unrefreshed (S : PriceSchedule) (high : ℕ) (c : Coordinator) : Prop where
  needed : c.gov.revalidationNeeded = true
  schedule : c.gov.schedule = S
  epoch : 1 < c.gov.epoch.value.toNat ∧ c.gov.epoch.value.toNat ≤ high
  file : c.file ≠ none
  snapshots : Snapshots (fun snap => snap.priceSchedule = S ∧
    1 ≤ snap.epoch.value.toNat ∧ snap.epoch.value.toNat ≤ high) c
  withheld : Withheld c

variable {S : PriceSchedule} {high : ℕ} {c : Coordinator}

theorem Unrefreshed.succ (h : Unrefreshed S high c) : Unrefreshed S (high + 1) c :=
  { h with
    epoch := ⟨h.epoch.1, h.epoch.2.trans high.le_succ⟩
    snapshots := h.snapshots.mono fun _ hsnap =>
      ⟨hsnap.1, hsnap.2.1, hsnap.2.2.trans high.le_succ⟩ }

/-- A worker states the first epoch, which is over. -/
theorem Unrefreshed.publishPrice (h : Unrefreshed S high c) {kind : WorkerKind}
    {bootOverride : UInt64} {obs : PriceObservation} (hobs : obs ∈ kind.prices bootOverride) :
    c.gov.publishPrice obs = (.staleAuthority, c.gov) := by
  have hne : obs.epoch ≠ c.gov.epoch := by
    intro heq
    have hlt := h.epoch.1
    rw [← heq, WorkerKind.epoch_of_mem_prices hobs] at hlt
    exact absurd hlt (by decide)
  exact if_pos hne

theorem Unrefreshed.accepting (h : Unrefreshed S high c) {e : Event}
    (hworkers : PublishedByWorkers (.event e)) : c.accepting e = [] := by
  by_contra haccepted
  obtain ⟨s, obs, rfl, hobs, -⟩ := accepting_cases haccepted
  obtain ⟨kind, bootOverride, pings, hmem⟩ := hworkers s obs rfl
  have hstale := h.publishPrice (WorkerKind.mem_prices_of_mem_messages hmem)
  refine haccepted ?_
  dsimp only [Coordinator.accepting]
  rw [hstale]
  split <;> rfl

theorem Unrefreshed.event (h : Unrefreshed S high c) {e : Event}
    (hworkers : PublishedByWorkers (.event e)) : Unrefreshed S high (c.step e) := by
  have haccepting := h.accepting hworkers
  refine ⟨step_revalidationNeeded haccepting h.needed, ?_, ?_, ?_, ?_, ?_⟩
  · rw [step_schedule haccepting]
    exact h.schedule
  · rw [step_epoch]
    exact h.epoch
  · exact step_file_ne_none h.file e
  · exact h.snapshots.step ⟨h.schedule, h.epoch.1.le, h.epoch.2⟩ e
  · exact h.withheld.step h.needed e

theorem unrefreshed_events (h : Unrefreshed S high c) {es : List Event}
    (hworkers : ∀ e ∈ es, PublishedByWorkers (.event e)) : Unrefreshed S high (run step c es) :=
  run_invariant (fun _ _ hc he => hc.event he) h
    (along_of_forall (C := fun _ e => PublishedByWorkers (.event e)) c es fun e he _ =>
      hworkers e he)

theorem unrefreshed_boot {snap : DurableSnapshot} (hS : snap.priceSchedule = S)
    (hlow : 1 ≤ snap.epoch.value.toNat) (hhigh : snap.epoch.value.toNat ≤ high)
    (hwrap : high + 1 < 2 ^ 64) : Unrefreshed S (high + 1) (boot (some snap)) := by
  have hepoch := boot_epoch_toNat (show snap.epoch.value.toNat + 1 < 2 ^ 64 by omega)
  refine ⟨rfl, hS, by omega, Option.some_ne_none snap, ?_, withheld_boot _⟩
  refine snapshots_boot fun saved hsaved => ?_
  rw [← Option.some.inj hsaved]
  exact ⟨hS, hlow, hhigh.trans (Nat.le_succ _)⟩

theorem unrefreshed_run {snap : DurableSnapshot} {ls : List Life}
    (hlow : 1 ≤ snap.epoch.value.toNat)
    (hwrap : snap.epoch.value.toNat + 1 + ls.length < 2 ^ 64)
    (hworkers : ∀ l ∈ ls, PublishedByWorkers l) :
    Unrefreshed snap.priceSchedule (snap.epoch.value.toNat + 1 + ls.length)
      (run live (boot (some snap)) ls) := by
  induction ls using List.reverseRecOn with
  | nil => exact unrefreshed_boot rfl hlow le_rfl hwrap
  | append_singleton ls l ih =>
      rw [List.length_append, List.length_singleton] at hwrap ⊢
      have hu := ih (by omega) fun x hx => hworkers x (List.mem_append_left _ hx)
      have hl := hworkers l (List.mem_append_right _ (List.mem_singleton_self l))
      rw [run_append, run_cons, run_nil]
      cases l with
      | event e => exact hu.succ.event hl
      | crash =>
          obtain ⟨file, hfile⟩ := Option.ne_none_iff_exists'.1 hu.file
          obtain ⟨hS, hfirst, hlast⟩ := hu.snapshots.file file hfile
          change Unrefreshed _ _ (boot (run live (boot (some snap)) ls).file)
          rw [hfile]
          exact unrefreshed_boot hS hfirst hlast (by omega)

/-- A session that waits to judge a decision waits on while the others act. -/
theorem run_revalidating {s : ℕ} {last : CostDecision} {plans : List ExecutionPlan}
    {others : List Event} (hothers : ∀ e ∈ others, ∀ saved, e ≠ .resume s saved)
    (hs : c.sessions s = .revalidating last plans) :
    (run step c others).sessions s = .revalidating last plans := by
  refine run_invariant (I := fun c : Coordinator => c.sessions s = .revalidating last plans) ?_ hs
    (along_of_forall (C := fun _ e => ∀ saved, e ≠ .resume s saved) c others
      fun e he _ => hothers e he)
  intro c e hwaits hother
  rcases c.step_session e s with hsame | ⟨m, -, hidle, -⟩ | ⟨saved, heq, -⟩
  · exact hsame.trans hwaits
  · rw [hwaits] at hidle
    cases hidle
  · exact absurd heq (hother saved)

end Unrefreshed

/-- Over every life of a coordinator that starts without a state file and, after a crash with
one, hears prices from workers only: it serves the recovered prices for good, whatever else
is sent and however often it crashes again. Workers are refused and every decision it returns
is REVALIDATE. A REVALIDATE message of no more plans than a request may have finds no AUTHORIZE
decision and is answered OK, whatever the other sessions do until its handler is resumed. -/
theorem workers_never_refresh_recovered_prices (before after : List Life) (snap : DurableSnapshot)
    (hfile : (run live (boot none) before).file = some snap)
    (hworkers : ∀ l ∈ after, PublishedByWorkers l)
    (hcount : before.length + after.length + 4 < 2 ^ 64) :
    let c := run live (boot none) (before ++ .crash :: after)
    c.gov.schedule = snap.priceSchedule ∧
      (∀ s (kind : WorkerKind) bootOverride, ∀ obs ∈ kind.prices bootOverride,
        c.sessions s = .idle →
        c.step (.message s (.publishPrice obs)) = c.finish s (.status .staleAuthority)) ∧
      (∀ s d, (s, .decision d) ∈ c.replies → d.kind = .revalidate) ∧
      ∀ s plans others saved, c.sessions s = .idle → plans.length ≤ maxPlans →
        (∀ e ∈ others, PublishedByWorkers (.event e) ∧ ∀ saved, e ≠ .resume s saved) →
        let c' := run step (c.step (.message s (.revalidate plans))) others
        c'.step (.resume s saved) = c'.finish s (.status .ok) := by
  have hrunBefore : FirstBudgets (before.length + 1) (run live (boot none) before) :=
    firstBudgets_run (by omega)
  obtain ⟨-, hlow, hhigh⟩ := hrunBefore.snapshots.file snap hfile
  rw [run_restarted after hfile]
  have hu : Unrefreshed snap.priceSchedule (snap.epoch.value.toNat + 1 + after.length)
      (run live (boot (some snap)) after) := unrefreshed_run hlow (by omega) hworkers
  generalize run live (boot (some snap)) after = c at hu ⊢
  refine ⟨hu.schedule, ?_, hu.withheld.replies, ?_⟩
  · intro s kind bootOverride obs hobs hidle
    rw [step_message_of_idle hidle, receive, hu.publishPrice hobs]
    rfl
  · intro s plans others saved hidle hplans hothers
    have htaken : (c.step (.message s (.revalidate plans))).sessions s =
        .revalidating c.lastDecision plans := by
      rw [step_message_of_idle hidle, receive, if_neg (not_lt.2 hplans)]
      exact Function.update_self ..
    have hrevalidate : PublishedByWorkers (.event (.message s (.revalidate plans))) := by
      intro s' obs heq
      cases heq
    have hrun := unrefreshed_events (hu.event hrevalidate) fun e he => (hothers e he).1
    exact hrun.withheld.revalidated (run_revalidating (fun e he => (hothers e he).2) htaken) saved

def workerReturns : List Life :=
  (WorkerKind.b.messages 0 1).map (fun m => .event (.message 2 m)) ++
    [.event (.message 3 (.requestEval ⟨1⟩ ⟨1⟩ [])), .event (.resume 3 true)]

theorem workerReturns_publishedByWorkers : ∀ l ∈ workerReturns, PublishedByWorkers l := by
  intro l hl s obs heq
  rcases List.mem_append.1 hl with hworker | hclient
  · obtain ⟨m, hm, rfl⟩ := List.mem_map.1 hworker
    cases heq
    exact ⟨.b, 0, 1, hm⟩
  · subst heq
    simp at hclient

theorem workers_never_refresh_recovered_prices_workerReturns :
    let c := run live (boot none) (savedThenCrashed ++ .crash :: workerReturns)
    c.gov.schedule.observations = [{ epoch := ⟨1⟩ }] ∧
      (∀ obs ∈ WorkerKind.a.prices 0,
        c.step (.message 0 (.publishPrice obs)) = c.finish 0 (.status .staleAuthority)) ∧
      (∃ d, (3, .decision d) ∈ c.replies ∧ d.kind = .revalidate) ∧
      let c' := run step (c.step (.message 3 (.revalidate [{}]))) [.message 0 .getState]
      c'.step (.resume 3 true) = c'.finish 3 (.status .ok) := by
  intro c
  obtain ⟨snap, hsnap, hprices⟩ : ∃ snap, (run live (boot none) savedThenCrashed).file = some snap ∧
      snap.priceSchedule.observations = [{ epoch := ⟨1⟩ }] := ⟨_, rfl, rfl⟩
  obtain ⟨hschedule, hrefused, hdecisions, hok⟩ := workers_never_refresh_recovered_prices
    savedThenCrashed workerReturns snap hsnap workerReturns_publishedByWorkers (by decide)
  have hreply : ∃ d, (3, .decision d) ∈ c.replies := ⟨_, List.mem_of_mem_getLast? rfl⟩
  obtain ⟨d, hd⟩ := hreply
  refine ⟨hschedule ▸ hprices, fun obs hobs => hrefused 0 .a 0 obs hobs rfl,
    ⟨d, hd, hdecisions 3 d hd⟩, hok 3 [{}] _ true rfl (by decide) fun e he => ?_⟩
  rw [List.mem_singleton.1 he]
  refine ⟨fun s obs heq => ?_, fun saved heq => ?_⟩ <;> cases heq

end CostGovernor
