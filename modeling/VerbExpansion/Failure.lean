import VerbExpansion.ConfigError
import VerbExpansion.Interruption

/-!
# Failures

A job fails because what a user wrote is refused, or because it was interrupted.
-/

namespace VerbExpansion

/-- The two ways in which a job can fail. -/
inductive Failure where
  | refused (error : ConfigError)
  | interrupted (interruption : Interruption)

end VerbExpansion
