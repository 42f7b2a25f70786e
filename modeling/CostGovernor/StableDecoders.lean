import CostGovernor.ByteReaders
import CostGovernor.ClientCalls

/-!
# Decoders do not look ahead

Every decoder takes its fields off the front of the payload, so bytes after the last
field are ignored and a payload that lacks any of its bytes is malformed.
-/

namespace CostGovernor

open ByteStreams Executions

namespace Cgproto

section Stable

theorem stable_u8 : Stable Reader.u8 := (stable_takeBytes truncated 1).map _

theorem stable_u32 : Stable Reader.u32 := stable_readWord truncated 4

theorem stable_u64 : Stable Reader.u64 := (stable_readWord truncated 8).map _

theorem stable_i64 : Stable Reader.i64 := stable_u64.map _

theorem stable_str : Stable Reader.str :=
  stable_u32.bind fun len => (stable_takeBytes truncated len).guarded

theorem stable_money : Stable (MoneyMicros.fromMicros <$> Reader.i64) := stable_i64.map _

theorem stable_id {tag : IdTag} : Stable (getId : Read (Id tag)) := stable_u64.map _

theorem stable_enum {α : Type} (byte : α ≃ UInt8) : Stable (getEnum byte) := stable_u8.map _

theorem stable_bool : Stable getBool := stable_u8.map _

theorem stable_decodePrice : Stable decodePrice :=
  stable_id.bind fun _ => (stable_enum _).bind fun _ => stable_id.bind fun _ =>
  stable_id.bind fun _ => stable_money.bind fun _ => stable_str.bind fun _ =>
  (stable_enum _).bind fun _ => (stable_enum _).bind fun _ => stable_i64.bind fun _ =>
  stable_i64.bind fun _ => stable_i64.bind fun _ => stable_id.bind fun _ =>
  stable_id.bind fun _ => stable_id.bind fun _ => stable_id.bind fun _ => stable_pure _

theorem stable_decodePlan : Stable decodePlan :=
  stable_id.bind fun _ => stable_id.bind fun _ => stable_id.bind fun _ => stable_id.bind fun _ =>
  stable_id.bind fun _ => stable_id.bind fun _ => stable_id.bind fun _ => stable_id.bind fun _ =>
  stable_id.bind fun _ => stable_i64.bind fun _ => stable_i64.bind fun _ =>
  stable_i64.bind fun _ => stable_i64.bind fun _ => stable_i64.bind fun _ =>
  stable_i64.bind fun _ => stable_i64.bind fun _ => stable_i64.bind fun _ =>
  stable_i64.bind fun _ => stable_i64.bind fun _ => (stable_enum _).bind fun _ =>
  stable_bool.bind fun _ => stable_i64.bind fun _ => stable_pure _

theorem stable_decodeEvidence : Stable decodeEvidence :=
  stable_id.bind fun _ => stable_id.bind fun _ => stable_id.bind fun _ => stable_id.bind fun _ =>
  stable_id.bind fun _ => stable_id.bind fun _ => stable_id.bind fun _ => stable_id.bind fun _ =>
  stable_id.bind fun _ => stable_i64.bind fun _ => stable_id.bind fun _ => stable_id.bind fun _ =>
  (stable_enum _).bind fun _ => stable_bool.bind fun _ => stable_bool.bind fun _ =>
  stable_i64.bind fun _ => stable_i64.bind fun _ => stable_i64.bind fun _ =>
  stable_i64.bind fun _ => stable_i64.bind fun _ => stable_i64.bind fun _ =>
  stable_i64.bind fun _ => stable_i64.bind fun _ => stable_i64.bind fun _ =>
  stable_i64.bind fun _ => stable_i64.bind fun _ => stable_pure _

theorem stable_readPlans : Stable readPlans :=
  stable_u32.bind fun n => (stable_decodePlan.many n).guarded

theorem stable_readMessage (type : Msg) : Stable (readMessage type) := by
  cases type with
  | hello => exact stable_id.bind fun _ => stable_id.bind fun _ => stable_pure _
  | publishPrice => exact stable_decodePrice.map _
  | requestEval =>
      exact stable_id.bind fun _ => stable_id.bind fun _ => stable_readPlans.bind fun _ =>
        stable_pure _
  | recordAttempt => exact stable_decodeEvidence.map _
  | reserve =>
      exact stable_id.bind fun _ => stable_id.bind fun _ => stable_id.bind fun _ =>
        stable_money.bind fun _ => stable_pure _
  | commit => exact stable_id.map _
  | release => exact stable_id.map _
  | realize => exact stable_id.bind fun _ => stable_id.bind fun _ => stable_pure _
  | revalidate => exact stable_readPlans.map _
  | _ => exact stable_pure _

end Stable

/-- A payload its handler reads to the end. -/
def Complete (type : Msg) (payload : ByteString) (m : Message) : Prop :=
  readMessage type payload = .ok (m, [])

theorem decode_of_cut {type : Msg} {payload : ByteString} {m : Message}
    (h : Complete type payload m) {n : ℕ} (hn : n < payload.length) :
    Message.decode type (payload.take n) = .malformed := by
  have hwhole : ∀ a rest, readMessage type payload = .ok (a, rest) → rest = [] := by
    intro a rest hread
    rw [show readMessage type payload = .ok (m, []) from h] at hread
    cases hread
    rfl
  obtain ⟨e, he⟩ := (stable_readMessage type).error_of_take hn hwhole
  rw [Message.decode, he]

theorem decode_of_longer {type : Msg} {payload : ByteString} {m : Message}
    (h : Complete type payload m) (more : ByteString) :
    Message.decode type (payload ++ more) = m := by
  rw [Message.decode, stable_readMessage type _ _ _ h more]

end Cgproto

end CostGovernor
