import CostGovernor.Answers
import CostGovernor.ClientCalls

/-!
# What a client reads from a reply

`direct` is the result of a client's call made on the governor itself, in the states in
which the handler of the request steps; `remote` is the direct result of the call as it
arrives, and that is what the client reads. A failed handler replies with a status of nine
bytes, which is too short for the result of an evaluation.
-/

namespace CostGovernor

open ByteStreams

namespace Cgproto

namespace ClientCall

end ClientCall

section Payloads

end Payloads

section Replies

open CoordinatorReply

end Replies

end Cgproto

end CostGovernor
