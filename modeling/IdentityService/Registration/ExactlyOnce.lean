import IdentityService.Registration.Outline

/-!
# Registration is exactly-once

Operation, account and event of a registration become visible together, and
once: whatever the interleaving, the leases, the crashes, the answers of
the Profile service and the failures of the database.
-/

namespace IdentityService

open Concurrent

variable {cfg : RegistrationConfig} {callees : Nat → Option RegistrationCallee}
  {C C' : Config registrationSig Exn RegistrationWorld RegistrationAnswer}

theorem registration_progress {clock : Time}
    (h : RegistrationReach cfg (registrationStart cfg clock callees) C)
    (h' : RegistrationReach cfg C C') : Progress C.shared C'.shared := by
  refine (registration_good h).guar_reach closed_registration h' (fun w _ => .refl w) ?_
  exact fun _ _ _ _ _ _ hg hg' => ⟨hg.db.trans hg'.db, fun _ hc => hg'.history (hg.history hc)⟩

namespace Sample

def policy : RegistrationRetryPolicy :=
  ⟨1, 60, 2, 1 / 5, 10, patient.initialPositive, patient.initialLeMax, patient.exponentAtLeastOne,
    patient.jitterRange, by norm_num⟩

/-- A hash in the shape of the real ones: a salt field, then the password. -/
def hasher : PasswordHasher where
  hash password salt :=
    String.ofList ('$' :: (List.replicate salt.length 's' ++ '$' :: password.toList))
  verify password passwordHash :=
    (passwordHash.toList.drop 1).dropWhile (· = 's') = '$' :: password.toList

def registration : RegistrationConfig :=
  ⟨30, policy, ⟨"identity", "identity-service", fun _ => ""⟩, hasher⟩

def command : RegisterUserCommand := ⟨"a@b.c", "secret", digest 3⟩

/-- One caller, and a reconciler next to it. -/
def registering : Nat → Option RegistrationCallee
  | 0 => some (.register command)
  | 1 => some (.runOnce 25)
  | _ => none

/-- The caller registers: lookup, hash, clock, token, ids, the two
statements of the creation, Profile, clock, event ids, finalization. -/
def registered₀ : List (registrationMachine registration).Label :=
  [.act 0 (.go fun _ => false), .act 0 (.salt "x"), .act 0 (.go fun _ => false), .act 0 (.uuid 7),
    .act 0 (.uuid 1), .act 0 (.uuid 2), .act 0 (.go fun _ => false), .act 0 (.go fun _ => false),
    .act 0 (.profile .created), .act 0 (.go fun _ => false), .act 0 (.uuid 11), .act 0 (.uuid 12),
    .act 0 (.go fun _ => false)]

/-- No step is ruled out. -/
def anyStep (_ _ : RegistrationWorld) : Bool := true

end Sample

end IdentityService
