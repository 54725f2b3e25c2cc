/-
# Responses as outcomes

All handling of statuses goes through `Response.result`: success gives the payload, which may be
absent, and every other status is a failure.
-/
import MuxBridge.Message.Basic
import MuxBridge.Failure

namespace MuxBridge

/-- The payload of a successful response; every other status is a failure, whatever the payload. -/
def Response.result (r : Response) : Outcome (Option Payload) :=
  if r.status.isOk then .ok r.payload else .error (.refused r.status)

/-- Success yields the payload. -/
@[simp] theorem Response.result_success (p : Payload) :
    (Response.success p).result = .ok (some p) :=
  rfl

/-- Success without a payload yields none. -/
@[simp] theorem Response.result_empty : Response.empty.result = .ok none := rfl

/-- A status other than success is the failure, whatever comes with it. -/
theorem Response.result_of_ne_ok {s : Status} (h : s ≠ .ok) (p : Option Payload) :
    (Response.mk s p).result = .error (.refused s) := by
  cases s <;> simp_all [Response.result, Status.isOk]

end MuxBridge
