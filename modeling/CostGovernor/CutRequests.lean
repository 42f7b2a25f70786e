import CostGovernor.Replies
import CostGovernor.StableDecoders

/-!
# Requests that are cut short

A malformed request is answered with a status of its own and does nothing else: put anywhere
into a run, it changes neither the shared state nor what any other session is told.
-/

namespace CostGovernor

open ByteStreams Executions

open Cgproto

namespace Coordinator

def withReplies (r : List (ℕ × CoordinatorReply)) (c : Coordinator) : Coordinator :=
  { c with replies := r }

/-- A step sends the same replies whatever has been sent before. -/
def SendsAlike (f : Coordinator → Coordinator) (c : Coordinator) : Prop :=
  ∃ sent, ∀ r, f (c.withReplies r) = (f c).withReplies (r ++ sent)

theorem sendsNothing {f : Coordinator → Coordinator} {c : Coordinator}
    (h : ∀ r, f (c.withReplies r) = (f c).withReplies r) : SendsAlike f c := by
  refine ⟨[], fun r => ?_⟩
  rw [List.append_nil]
  exact h r

theorem afterWrite_sendsAlike (c : Coordinator) (s : ℕ) (x : Status × Governor) :
    SendsAlike (fun c => c.afterWrite s x) c := by
  by_cases hok : x.1 = .ok
  · refine sendsNothing fun r => ?_
    simp only [afterWrite, if_pos hok]
    rfl
  · refine ⟨[(s, .status x.1)], fun r => ?_⟩
    simp only [afterWrite, if_neg hok]
    rfl

theorem afterReserve_sendsAlike (c : Coordinator) (s : ℕ) (x : Governor.ReserveResult) :
    SendsAlike (fun c => c.afterReserve s x) c := by
  obtain ⟨result, r, g⟩ := x
  cases result with
  | error e => exact ⟨[(s, .status .interventionFailed)], fun _ => rfl⟩
  | ok st =>
      cases st with
      | ok =>
          cases r with
          | none => exact ⟨[(s, .reservation .ok none)], fun _ => rfl⟩
          | some r => exact sendsNothing fun _ => rfl
      | _ => exact ⟨[(s, .reservation _ none)], fun _ => rfl⟩

theorem receive_sendsAlike (c : Coordinator) (s : ℕ) (m : Message) :
    SendsAlike (fun c => c.receive s m) c := by
  have hfail : SendsAlike (fun c => c.fail s) c :=
    ⟨[(s, .status .interventionFailed)], fun _ => rfl⟩
  cases m with
  | publishPrice obs => exact c.afterWrite_sendsAlike s (c.gov.publishPrice obs)
  | recordAttempt e => exact c.afterWrite_sendsAlike s (c.gov.recordAttempt e)
  | reserve budget gen epoch amount =>
      exact c.afterReserve_sendsAlike s (c.gov.reserve budget gen epoch amount)
  | requestEval workload workloadGen plans =>
      simp only [receive]
      by_cases hcount : maxPlans < plans.length
      · simp only [if_pos hcount]
        exact hfail
      · simp only [if_neg hcount]
        cases hd : c.gov.evaluate workload workloadGen plans with
        | error e =>
            refine ⟨[(s, .status .interventionFailed)], fun r => ?_⟩
            simp only [withReplies, hd]
            rfl
        | ok d =>
            refine sendsNothing fun r => ?_
            simp only [withReplies, hd]
            rfl
  | settle kind token =>
      cases hfound : c.reservations.find? token with
      | none =>
          refine ⟨[(s, .status .invalidInput)], fun r => ?_⟩
          simp only [receive, withReplies, hfound]
          rfl
      | some res =>
          refine sendsNothing fun r => ?_
          simp only [receive, withReplies, hfound]
          rfl
  | realize request workload =>
      cases hx : c.gov.finalizeRequest request workload with
      | mk result g =>
          cases result with
          | error e =>
              refine ⟨[(s, .status .interventionFailed)], fun r => ?_⟩
              simp only [receive, withReplies, hx]
              rfl
          | ok st =>
              refine sendsNothing fun r => ?_
              simp only [receive, withReplies, hx]
              rfl
  | revalidate plans =>
      simp only [receive]
      by_cases hcount : maxPlans < plans.length
      · simp only [if_pos hcount]
        exact hfail
      · simp only [if_neg hcount]
        exact sendsNothing fun _ => rfl
  | quit => exact sendsNothing fun _ => rfl
  | hello worker boot => exact ⟨[(s, .welcome c.gov.epoch boot)], fun _ => rfl⟩
  | getState => exact sendsNothing fun _ => rfl
  | malformed => exact hfail
  | unknown => exact ⟨[(s, _)], fun _ => rfl⟩

theorem proceed_sendsAlike (c : Coordinator) (s : ℕ) (saved : Bool) (st : SessionState) :
    SendsAlike (fun c => c.proceed s saved st) c := by
  cases st with
  | idle => exact sendsNothing fun _ => rfl
  | persisting st => exact sendsNothing fun _ => rfl
  | saving st snap => exact ⟨[(s, _)], fun _ => rfl⟩
  | evaluated d => exact ⟨[(s, _)], fun _ => rfl⟩
  | granted r => exact ⟨[(s, _)], fun _ => rfl⟩
  | copied kind token r =>
      cases hx : settleCall c.gov kind r with
      | mk result y =>
          obtain ⟨r', g⟩ := y
          cases result with
          | error e =>
              refine ⟨[(s, .status .interventionFailed)], fun r => ?_⟩
              simp only [proceed, withReplies, hx]
              rfl
          | ok st =>
              refine sendsNothing fun r => ?_
              simp only [proceed, withReplies, hx]
              rfl
  | settled token r st => exact ⟨[(s, _)], fun _ => rfl⟩
  | finalized request st =>
      cases hcost : c.gov.realizedRequestCost request with
      | error e =>
          refine ⟨[(s, .status .interventionFailed)], fun r => ?_⟩
          simp only [proceed, withReplies, hcost]
          rfl
      | ok cost =>
          refine ⟨[(s, .realized st cost)], fun r => ?_⟩
          simp only [proceed, withReplies, hcost]
          rfl
  | reading reads =>
      cases reads with
      | budgets epoch priceGen policyGen budgets =>
          exact ⟨[(s, .report epoch priceGen policyGen budgets
            c.gov.schedule.observations.length)], fun _ => rfl⟩
      | _ => exact sendsNothing fun _ => rfl
  | revalidating last plans =>
      cases hst : c.gov.validateForDispatch last plans with
      | error e =>
          refine ⟨[(s, .status .interventionFailed)], fun r => ?_⟩
          simp only [proceed, withReplies, hst]
          rfl
      | ok st =>
          refine ⟨[(s, .status st)], fun r => ?_⟩
          simp only [proceed, withReplies, hst]
          rfl

theorem step_sendsAlike (c : Coordinator) (e : Event) : SendsAlike (fun c => c.step e) c := by
  cases e with
  | resume s saved => exact c.proceed_sendsAlike s saved (c.sessions s)
  | message s m =>
      by_cases hidle : c.sessions s = .idle
      · obtain ⟨sent, hsent⟩ := c.receive_sendsAlike s m
        refine ⟨sent, fun r => ?_⟩
        have hidle' : (c.withReplies r).sessions s = .idle := hidle
        dsimp only
        rw [step_message_of_idle hidle', step_message_of_idle hidle]
        exact hsent r
      · refine sendsNothing fun r => ?_
        have hbusy : (c.withReplies r).sessions s ≠ .idle := hidle
        rw [step_message_of_busy hbusy, step_message_of_busy hidle]

structure AgreesFor (quiet : ℕ → Prop) (c d : Coordinator) : Prop where
  state : ∃ r, d = c.withReplies r
  replies : ∀ s, quiet s → d.repliesTo s = c.repliesTo s

theorem agreesFor_refl (quiet : ℕ → Prop) (c : Coordinator) : AgreesFor quiet c c :=
  ⟨⟨c.replies, rfl⟩, fun _ _ => rfl⟩

/-- The same replies after replies that are the same for `s`. -/
theorem repliesTo_congr {c d : Coordinator} {r r' sent : List (ℕ × CoordinatorReply)} {s : ℕ}
    (hc : c.replies = r ++ sent) (hd : d.replies = r' ++ sent)
    (h : (r'.filter (·.1 = s)).map Prod.snd = (r.filter (·.1 = s)).map Prod.snd) :
    d.repliesTo s = c.repliesTo s := by
  rw [repliesTo, repliesTo, hc, hd, List.filter_append, List.filter_append, List.map_append,
    List.map_append, h]

theorem AgreesFor.step {quiet : ℕ → Prop} {c d : Coordinator} (h : AgreesFor quiet c d)
    (e : Event) : AgreesFor quiet (c.step e) (d.step e) := by
  obtain ⟨⟨r, rfl⟩, hreplies⟩ := h
  obtain ⟨sent, hsent⟩ := c.step_sendsAlike e
  have hc : (c.step e).replies = c.replies ++ sent := congrArg Coordinator.replies (hsent c.replies)
  have hd : (c.withReplies r).step e = (c.step e).withReplies (r ++ sent) := hsent r
  refine ⟨⟨r ++ sent, hd⟩, fun s hs => ?_⟩
  exact repliesTo_congr hc (congrArg Coordinator.replies hd) (hreplies s hs)

/-- A malformed request leaves everything but its own reply as it was. -/
theorem AgreesFor.malformed {quiet : ℕ → Prop} {c d : Coordinator} (h : AgreesFor quiet c d)
    {s : ℕ} (hs : ¬ quiet s) : AgreesFor quiet c (d.step (.message s .malformed)) := by
  by_cases hidle : d.sessions s = .idle
  · obtain ⟨⟨r, rfl⟩, hreplies⟩ := h
    rw [step_message_of_idle hidle]
    have hsessions : Function.update c.sessions s SessionState.idle = c.sessions := by
      have hself := Function.update_eq_self s c.sessions
      rwa [show c.sessions s = .idle from hidle] at hself
    have hfail : (c.withReplies r).receive s .malformed =
        c.withReplies (r ++ [(s, .status .interventionFailed)]) := by
      simp only [receive, fail, finish, setSession, withReplies, hsessions]
    rw [hfail]
    refine ⟨⟨_, rfl⟩, fun s' hs' => ?_⟩
    have hne : s ≠ s' := by
      rintro rfl
      exact hs hs'
    rw [← hreplies s' hs']
    simp [repliesTo, withReplies, hne]
  · rw [step_message_of_busy hidle]
    exact h

end Coordinator

/-- A request that lacks some of its bytes, on one of the sessions that are not quiet. -/
def CutRequest (quiet : ℕ → Prop) (e : Event) : Prop :=
  ∃ s type payload m n, ¬ quiet s ∧ Complete type payload m ∧ n < payload.length ∧
    e = .message s (Message.decode type (payload.take n))

open Coordinator in
/-- Requests cut at any byte may come in between any steps of a run: the governor, the state
file, the reservations, the last decision and every session are as without them, and a
session that sends none of them gets the same replies. Bytes after a whole request do not
change its message. -/
theorem cut_requests_do_nothing (c : Coordinator) (quiet : ℕ → Prop) (es es' : List Event)
    (h : Interspersed (CutRequest quiet) es es') :
    (∃ r, run step c es' = (run step c es).withReplies r) ∧
      (∀ s, quiet s → (run step c es').repliesTo s = (run step c es).repliesTo s) ∧
      ∀ type payload m more, Complete type payload m →
        Message.decode type (payload ++ more) = Message.decode type payload := by
  have hagrees : AgreesFor quiet (run step c es) (run step c es') := by
    refine run_interspersed (fun c d e hcd => hcd.step e) ?_ h (agreesFor_refl quiet c)
    rintro c d e hcd ⟨s, type, payload, m, n, hs, hcomplete, hn, rfl⟩
    rw [decode_of_cut hcomplete hn]
    exact hcd.malformed hs
  refine ⟨hagrees.state, hagrees.replies, fun type payload m more hcomplete => ?_⟩
  have hself := decode_of_longer hcomplete []
  rw [List.append_nil] at hself
  rw [decode_of_longer hcomplete, hself]

def greetingPayload : ByteString := (ClientCall.hello ⟨1⟩ ⟨10⟩).frame.2

/-- A session asks for the state, which takes four more steps to answer. -/
def askState : List Event := .message 0 .getState :: List.replicate 4 (.resume 0 true)

open Coordinator in
theorem cut_requests_do_nothing_greeting :
    (run step (boot none) (.message 0 .getState ::
        .message 1 (Message.decode .hello (greetingPayload.take 15)) ::
        List.replicate 4 (.resume 0 true))).repliesTo 0 = [.report ⟨1⟩ ⟨1⟩ ⟨1⟩ 1 0] := by
  have hcomplete : Complete .hello greetingPayload (.hello ⟨1⟩ ⟨10⟩) := rfl
  have hcut : CutRequest (· = 0)
      (.message 1 (Message.decode .hello (greetingPayload.take 15))) :=
    ⟨1, .hello, greetingPayload, _, 15, by decide, hcomplete, by decide, rfl⟩
  have hsame := (cut_requests_do_nothing (boot none) (· = 0) askState _
    (.keep _ (.insert _ hcut (.keep _ (.keep _ (.keep _ (.keep _ .nil))))))).2.1 0 rfl
  exact hsame.trans rfl

end CostGovernor
