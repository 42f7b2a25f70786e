import CostGovernor.Handlers
import CostGovernor.Requests

/-!
# Every request is answered once

Each session answers its requests in the order it took them, one reply for each, and owes
at most the reply to the last one. An exchange names the steps of a run that its handler
took, and its reply is the answer for the states those steps found.
-/

namespace CostGovernor

open Executions

structure Exchange where
  session : ℕ
  message : Message
  reply : CoordinatorReply
  takenAt : ℕ
  resumedAt : List ℕ

open Coordinator

namespace Exchange

def sent (x : Exchange) : ℕ × CoordinatorReply := (x.session, x.reply)

def repliedAt (x : Exchange) : ℕ := x.resumedAt.getLastD x.takenAt

/-- The exchange is one of the run's: its handler took these steps, the last of them sent
the reply, and the reply is the answer for the states they found. -/
structure Genuine (x : Exchange) (c : Coordinator) (es : List Event) : Prop where
  handling : Handling c es x.session x.message x.takenAt x.resumedAt
  answers : answer (stateAt step c es x.takenAt) (x.resumedAt.map (stateAt step c es)) x.message =
    some x.reply
  sends : (stateAt step c es (x.repliedAt + 1)).replies =
    (stateAt step c es x.repliedAt).replies ++ [x.sent]

theorem Genuine.within {x : Exchange} {c : Coordinator} {es : List Event} (h : x.Genuine c es) :
    x.repliedAt < es.length := h.handling.lt List.getLastD_mem_cons

end Exchange

/-- The requests of session `s` among the exchanges. -/
def answeredTo (xs : List Exchange) (s : ℕ) : List Message :=
  (xs.filter (·.session = s)).map Exchange.message

/-- Session `s` owes nothing, or the reply to the last request it took. -/
inductive UpToDate (c : Coordinator) (es : List Event) (xs : List Exchange) (s : ℕ) : Prop
  | settled (hidle : (run step c es).sessions s = .idle)
      (hrequests : requests s c es = answeredTo xs s)
  | owing (m : Message) (t : ℕ) (ts : List ℕ) (hhandling : Handling c es s m t ts)
      (hhand : InHand (stateAt step c es t) (ts.map (stateAt step c es)) m
        ((run step c es).sessions s))
      (hrequests : requests s c es = answeredTo xs s ++ [m])

structure ExchangeLog (c : Coordinator) (es : List Event) (xs : List Exchange) : Prop where
  replies : (run step c es).replies = c.replies ++ xs.map Exchange.sent
  genuine : ∀ x ∈ xs, x.Genuine c es
  ordered : xs.Pairwise (fun x y => x.repliedAt < y.repliedAt)
  upToDate : ∀ s, UpToDate c es xs s

section Extension

variable {c : Coordinator} {es : List Event} {e : Event} {xs : List Exchange} {s : ℕ}

theorem Exchange.Genuine.snoc {x : Exchange} (h : x.Genuine c es) : x.Genuine c (es ++ [e]) := by
  obtain ⟨htaken, hlater⟩ := h.handling.states_snoc (e := e)
  refine ⟨h.handling.snoc, ?_, ?_⟩
  · rw [htaken, hlater]
    exact h.answers
  · rw [stateAt_append step c [e] h.within, stateAt_append step c [e] h.within.le]
    exact h.sends

theorem UpToDate.snoc {xs' : List Exchange} (h : UpToDate c es xs s)
    (hsession : (run step c (es ++ [e])).sessions s = (run step c es).sessions s)
    (hrequested : (run step c es).requested s e = []) (hxs : answeredTo xs' s = answeredTo xs s) :
    UpToDate c (es ++ [e]) xs' s := by
  have hrequests : requests s c (es ++ [e]) = requests s c es := by
    rw [requests_snoc, hrequested, List.append_nil]
  cases h with
  | settled hidle heq =>
      exact .settled (hsession.trans hidle) (by rw [hrequests, hxs, heq])
  | owing m t ts hhandling hhand heq =>
      obtain ⟨htaken, hlater⟩ := hhandling.states_snoc (e := e)
      refine .owing m t ts hhandling.snoc ?_ (by rw [hrequests, hxs, heq])
      rw [hsession, htaken, hlater]
      exact hhand

theorem answeredTo_snoc_of_ne {x : Exchange} (h : x.session ≠ s) :
    answeredTo (xs ++ [x]) s = answeredTo xs s := by
  simp [answeredTo, h]

theorem answeredTo_snoc_self (x : Exchange) :
    answeredTo (xs ++ [x]) x.session = answeredTo xs x.session ++ [x.message] := by
  simp [answeredTo]

/-- A step that changes nothing and takes nothing. -/
theorem ExchangeLog.unchanged (h : ExchangeLog c es xs)
    (hsame : (run step c es).step e = run step c es)
    (hrequested : ∀ s, (run step c es).requested s e = []) : ExchangeLog c (es ++ [e]) xs := by
  refine ⟨?_, fun x hx => (h.genuine x hx).snoc, h.ordered, fun s => ?_⟩
  · rw [run_snoc, hsame]
    exact h.replies
  · exact (h.upToDate s).snoc (by rw [run_snoc, hsame]) (hrequested s) rfl

/-- The exchange of a handler whose last step is the last step of the run. -/
theorem genuine_of_answered {m : Message} {t : ℕ} {ts : List ℕ} {reply : CoordinatorReply}
    (hhandling : Handling c (es ++ [e]) s m t ts) (hlast : ts.getLastD t = es.length)
    (hmoves : Advances (run step c es) ((run step c es).step e) s .idle [reply])
    (hready : answer (stateAt step c (es ++ [e]) t) (ts.map (stateAt step c (es ++ [e]))) m =
      some reply) : Exchange.Genuine ⟨s, m, reply, t, ts⟩ c (es ++ [e]) := by
  refine ⟨hhandling, hready, ?_⟩
  have hend : stateAt step c (es ++ [e]) (es.length + 1) = (run step c es).step e := by
    rw [← run_snoc, ← stateAt_length step c (es ++ [e]), List.length_append]
    rfl
  rw [Exchange.repliedAt, hlast, hend, stateAt_now]
  exact hmoves.replies

/-- A step of a handler. -/
theorem ExchangeLog.handled (h : ExchangeLog c es xs) {m : Message} {t : ℕ} {ts : List ℕ}
    (hhandling : Handling c (es ++ [e]) s m t ts) (hlast : ts.getLastD t = es.length)
    (hsession : e.session = s) (hrequests : requests s c (es ++ [e]) = answeredTo xs s ++ [m])
    (hstep : Handled (run step c es) s (stateAt step c (es ++ [e]) t)
      (ts.map (stateAt step c (es ++ [e]))) m ((run step c es).step e)) :
    ∃ xs', ExchangeLog c (es ++ [e]) xs' := by
  have hothers : ∀ s', s' ≠ s → (run step c es).requested s' e = [] := fun s' hs' =>
    requested_of_ne _ (hsession ▸ hs'.symm)
  cases hstep with
  | answered reply hmoves hready =>
      let x : Exchange := ⟨s, m, reply, t, ts⟩
      have hx : x.Genuine c (es ++ [e]) := genuine_of_answered hhandling hlast hmoves hready
      refine ⟨xs ++ [x], ?_, ?_, ?_, fun s' => ?_⟩
      · rw [run_snoc, hmoves.replies, h.replies, List.map_append, List.append_assoc]
        rfl
      · intro y hy
        rcases List.mem_append.1 hy with hold | hnew
        · exact (h.genuine y hold).snoc
        · rw [List.mem_singleton.1 hnew]
          exact hx
      · refine List.pairwise_append.2 ⟨h.ordered, List.pairwise_singleton _ _, ?_⟩
        intro y hy z hz
        rw [List.mem_singleton.1 hz]
        exact (h.genuine y hy).within.trans_eq hlast.symm
      · by_cases hs : s' = s
        · subst hs
          refine .settled ?_ (hrequests.trans (answeredTo_snoc_self x).symm)
          rw [run_snoc, hmoves.sessions, Function.update_self]
        · refine (h.upToDate s').snoc ?_ (hothers s' hs) (answeredTo_snoc_of_ne (Ne.symm hs))
          rw [run_snoc, hmoves.sessions, Function.update_of_ne hs]
  | begun st hmoves hhand =>
      refine ⟨xs, ?_, fun y hy => (h.genuine y hy).snoc, h.ordered, fun s' => ?_⟩
      · rw [run_snoc, hmoves.replies, h.replies]
        exact List.append_nil _
      · by_cases hs : s' = s
        · subst hs
          refine .owing m t ts hhandling ?_ hrequests
          rw [run_snoc, hmoves.sessions, Function.update_self]
          exact hhand
        · refine (h.upToDate s').snoc ?_ (hothers s' hs) rfl
          rw [run_snoc, hmoves.sessions, Function.update_of_ne hs]

end Extension

theorem ExchangeLog.message {c : Coordinator} {es : List Event} {xs : List Exchange}
    (h : ExchangeLog c es xs) (s : ℕ) (m : Message) :
    ∃ xs', ExchangeLog c (es ++ [.message s m]) xs' := by
  have hothers : ∀ s', s' ≠ s → (run step c es).requested s' (.message s m) = [] := fun s' hs' =>
    requested_of_ne _ hs'.symm
  cases h.upToDate s with
  | owing m' t ts hhandling hhand heq =>
      have hbusy : (run step c es).sessions s ≠ .idle := by
        intro hidle
        rw [hidle] at hhand
        exact hhand
      refine ⟨xs, h.unchanged (step_message_of_busy hbusy m) fun s' => ?_⟩
      by_cases hs : s' = s
      · subst hs
        exact (requested_self _ _ m).trans (taking_busy hbusy m)
      · exact hothers s' hs
  | settled hidle heq =>
      by_cases hm : m = .quit
      · subst hm
        refine ⟨xs, h.unchanged (step_message_of_idle hidle _) fun s' => ?_⟩
        by_cases hs : s' = s
        · subst hs
          exact (requested_self _ _ _).trans (taking_quit _)
        · exact hothers s' hs
      · have hnow := stateAt_now c es (.message s m)
        have hhandling : Handling c (es ++ [.message s m]) s m es.length [] :=
          ⟨by simp, by rw [hnow]; exact hidle, by simp, List.pairwise_singleton _ _⟩
        refine h.handled hhandling rfl rfl ?_ ?_
        · rw [requests_snoc, heq, requested_self, hidle, taking_idle hm]
        · rw [hnow, step_message_of_idle hidle]
          exact receive_handled (run step c es) s hm

theorem ExchangeLog.resume {c : Coordinator} {es : List Event} {xs : List Exchange}
    (h : ExchangeLog c es xs) (s : ℕ) (saved : Bool) :
    ∃ xs', ExchangeLog c (es ++ [.resume s saved]) xs' := by
  cases h.upToDate s with
  | settled hidle heq =>
      refine ⟨xs, h.unchanged ?_ fun s' => rfl⟩
      rw [step, hidle, proceed]
  | owing m t ts hhandling hhand heq =>
      obtain ⟨htaken, hlater⟩ := hhandling.states_snoc (e := .resume s saved)
      refine h.handled (hhandling.resume saved) (by simp) rfl ?_ ?_
      · rw [requests_snoc, heq]
        exact List.append_nil _
      · rw [htaken, List.map_append, hlater, List.map_singleton, stateAt_now]
        exact proceed_handled hhand saved

end CostGovernor
