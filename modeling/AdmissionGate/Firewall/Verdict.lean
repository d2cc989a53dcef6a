-- The decision on a request: it is let through, or turned away for one of
-- six reasons.

namespace AdmissionGate

/-- Why a request is turned away. -/
inductive Rejection where
  | blocked
  | rateLimited
  | dangerousInput
  | staleTimestamp
  | badSignature
  | replayed
  deriving DecidableEq, Repr

inductive Verdict where
  | admitted
  | rejected (why : Rejection)
  deriving DecidableEq, Repr

/-- The published name of a reason. -/
def Rejection.reason : Rejection → String
  | .blocked => "blocked_ip"
  | .rateLimited => "rate_limited"
  | .dangerousInput => "dangerous_input"
  | .staleTimestamp => "stale_timestamp"
  | .badSignature => "bad_signature"
  | .replayed => "replayed"

def Verdict.reason : Verdict → String
  | .admitted => "none"
  | .rejected why => why.reason

/-- Each verdict has a name of its own. -/
theorem Verdict.reason_inj {v w : Verdict} : v.reason = w.reason ↔ v = w := by
  constructor
  · intro h
    rcases v with _ | v <;> rcases w with _ | w
    · rfl
    · cases w <;> simp [reason, Rejection.reason] at h
    · cases v <;> simp [reason, Rejection.reason] at h
    · cases v <;> cases w <;> first | rfl | simp [reason, Rejection.reason] at h
  · rintro rfl
    rfl

end AdmissionGate
