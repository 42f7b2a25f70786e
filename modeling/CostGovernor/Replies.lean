import CostGovernor.Exchanges
import CostGovernor.RemoteResults

/-!
# Calls over the wire

A client sends its calls over one connection and reads a reply for each. Over every
interleaving of sessions and every cutting of the two streams, the replies are those of
the exchanges of its session, and each is read as the result of its call.
-/

namespace CostGovernor

open SegmentedStreams Executions

namespace Cgproto

end Cgproto

def Coordinator.repliesTo (c : Coordinator) (s : ℕ) : List CoordinatorReply :=
  (c.replies.filter (·.1 = s)).map Prod.snd

open Cgproto Coordinator

theorem ExchangeLog.repliesTo {c : Coordinator} {es : List Event} {xs : List Exchange}
    (h : ExchangeLog c es xs) (hstart : c.replies = []) (s : ℕ) :
    (run step c es).repliesTo s = (xs.filter (·.session = s)).map Exchange.reply := by
  rw [Coordinator.repliesTo, h.replies, hstart, List.nil_append, List.filter_map, List.map_map]
  rfl

end CostGovernor
