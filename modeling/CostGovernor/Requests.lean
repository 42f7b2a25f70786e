import CostGovernor.CoordinatorCalls
import CostGovernor.Executions

/-!
# The requests of a run

`requests` lists what a session takes in a run, and `Handling` says which steps of the run
are those of the handler of one request.
-/

namespace CostGovernor

open Executions

namespace Coordinator

def taking : SessionState → Message → List Message
  | .idle, .quit => []
  | .idle, m => [m]
  | _, _ => []

theorem taking_idle {m : Message} (hm : m ≠ .quit) : taking .idle m = [m] := by
  cases m <;> first | rfl | exact absurd rfl hm

theorem taking_busy {st : SessionState} (h : st ≠ .idle) (m : Message) : taking st m = [] := by
  cases st <;> first | rfl | exact absurd rfl h

theorem taking_quit (st : SessionState) : taking st .quit = [] := by
  cases st <;> rfl

def requested (c : Coordinator) (s : ℕ) : Event → List Message
  | .message s' m => if s' = s then taking (c.sessions s) m else []
  | .resume _ _ => []

def requests (s : ℕ) : Coordinator → List Event → List Message
  | _, [] => []
  | c, e :: es => c.requested s e ++ requests s (c.step e) es

theorem requests_snoc (s : ℕ) (c : Coordinator) (es : List Event) (e : Event) :
    requests s c (es ++ [e]) = requests s c es ++ (run step c es).requested s e := by
  induction es generalizing c with
  | nil => exact List.append_nil _
  | cons e' es ih => rw [List.cons_append, requests, ih, requests, List.append_assoc, run_cons]

theorem requested_of_ne (c : Coordinator) {s : ℕ} {e : Event} (h : e.session ≠ s) :
    c.requested s e = [] := by
  cases e with
  | message s' m => exact if_neg h
  | resume s' saved => rfl

theorem requested_self (c : Coordinator) (s : ℕ) (m : Message) :
    c.requested s (.message s m) = taking (c.sessions s) m := if_pos rfl

/-- The handler of `m` on session `s`: the step that takes the message and the later steps
that resume it. -/
structure Handling (c : Coordinator) (es : List Event) (s : ℕ) (m : Message) (t : ℕ)
    (ts : List ℕ) : Prop where
  event : es[t]? = some (.message s m)
  idle : (stateAt step c es t).sessions s = .idle
  resumed : ∀ k ∈ ts, ∃ saved, es[k]? = some (.resume s saved)
  ordered : (t :: ts).Pairwise (· < ·)

namespace Handling

variable {c : Coordinator} {es : List Event} {e : Event} {s t : ℕ} {m : Message} {ts : List ℕ}

theorem lt (h : Handling c es s m t ts) {k : ℕ} (hk : k ∈ t :: ts) : k < es.length := by
  rcases List.mem_cons.1 hk with rfl | hlater
  · exact (List.getElem?_eq_some_iff.1 h.event).1
  · obtain ⟨saved, hsaved⟩ := h.resumed k hlater
    exact (List.getElem?_eq_some_iff.1 hsaved).1

theorem first_lt (h : Handling c es s m t ts) : t < es.length := h.lt List.mem_cons_self

theorem snoc (h : Handling c es s m t ts) : Handling c (es ++ [e]) s m t ts := by
  refine ⟨?_, ?_, fun k hk => ?_, h.ordered⟩
  · rw [List.getElem?_append_left h.first_lt]
    exact h.event
  · rw [stateAt_append step c [e] h.first_lt.le]
    exact h.idle
  · rw [List.getElem?_append_left (h.lt (List.mem_cons_of_mem t hk))]
    exact h.resumed k hk

theorem resume (h : Handling c es s m t ts) (saved : Bool) :
    Handling c (es ++ [.resume s saved]) s m t (ts ++ [es.length]) := by
  have hold : Handling c (es ++ [.resume s saved]) s m t ts := h.snoc
  refine ⟨hold.event, hold.idle, fun k hk => ?_, ?_⟩
  · rcases List.mem_append.1 hk with hbefore | hnow
    · exact hold.resumed k hbefore
    · rw [List.mem_singleton.1 hnow]
      exact ⟨saved, by simp⟩
  · rw [← List.cons_append]
    refine List.pairwise_append.2 ⟨h.ordered, List.pairwise_singleton _ _, fun _ hk _ hnow => ?_⟩
    rw [List.mem_singleton.1 hnow]
    exact h.lt hk

/-- The states found do not change when the run goes on. -/
theorem states_snoc (h : Handling c es s m t ts) :
    stateAt step c (es ++ [e]) t = stateAt step c es t ∧
      ts.map (stateAt step c (es ++ [e])) = ts.map (stateAt step c es) :=
  ⟨stateAt_append step c [e] h.first_lt.le, List.map_congr_left fun _ hk =>
    stateAt_append step c [e] (h.lt (List.mem_cons_of_mem t hk)).le⟩

end Handling

theorem run_snoc (c : Coordinator) (es : List Event) (e : Event) :
    run step c (es ++ [e]) = (run step c es).step e := run_append step c es [e]

theorem stateAt_now (c : Coordinator) (es : List Event) (e : Event) :
    stateAt step c (es ++ [e]) es.length = run step c es := by
  rw [stateAt_append step c [e] le_rfl, stateAt_length]

end Coordinator

end CostGovernor
