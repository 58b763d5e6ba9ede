import NextInfra.Core.Ids

/-!
# What the HTTP connectors share

The clients of the providers differ in how they page; the checks of one answer and the
shape of a failure are the same.
-/

namespace NextInfra

abbrev Body := List UInt8

structure ClientError where
  code : ErrorCode
  retryAfterMs : Option Nat

def clientError (code : ErrorCode) : ClientError := { code := code, retryAfterMs := none }

structure HttpAnswer where
  status : Nat
  retryAfterSeconds : Option Nat
  body : Body

/-- `StatusCode::is_success`. -/
def HttpAnswer.isSuccess (answer : HttpAnswer) : Bool :=
  decide (200 ≤ answer.status) && decide (answer.status < 300)

def maxResponseBodyBytes : Nat := 4 * 1024 * 1024

/-- `saturating_mul(1000)` of `u64`. -/
def secondsToMs (seconds : Nat) : Nat := min (seconds * 1000) (2 ^ 64 - 1)

/-- The checks of one answer, in their order. -/
def HttpAnswer.accept (answer : HttpAnswer) : Except ClientError Body :=
  if maxResponseBodyBytes < answer.body.length then .error (clientError .invalidResponse)
  else if answer.status = 429 then
    .error { code := .rateLimited, retryAfterMs := answer.retryAfterSeconds.map secondsToMs }
  else if answer.status = 401 then .error (clientError .authenticationFailed)
  else if answer.status = 403 then .error (clientError .permissionDenied)
  else if answer.isSuccess = false then .error (clientError .providerUnavailable)
  else .ok answer.body

/-- An accepted answer is a success, and its body is taken as it is. -/
theorem HttpAnswer.accept_ok {answer : HttpAnswer} {body : Body} (h : answer.accept = .ok body) :
    answer.isSuccess = true ∧ answer.body = body := by
  unfold HttpAnswer.accept at h
  split at h
  · cases h
  split at h
  · cases h
  split at h
  · cases h
  split at h
  · cases h
  split at h
  · cases h
  rename_i hsuccess
  cases h
  exact ⟨by simpa using hsuccess, rfl⟩

/-- `u8::is_ascii_graphic`. -/
def isAsciiGraphic (b : UInt8) : Bool := decide (0x21 ≤ b) && decide (b ≤ 0x7E)

/-- The token of a header: text of at most 4096 graphic bytes. -/
def headerToken (secret : List UInt8) : Option String :=
  match String.fromUTF8? ⟨secret.toArray⟩ with
  | none => none
  | some token =>
      if secret = [] ∨ 4096 < secret.length ∨ secret.all isAsciiGraphic = false then none
      else some token

end NextInfra
