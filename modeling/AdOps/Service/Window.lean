import AdOps.Calendar

/-!
# Time windows

The time window that a command asks for, as the services receive it.
-/

namespace AdOps

structure Window where
  /-- The interval as it was asked for, in small letters. -/
  token : String
  /-- The platform's own name for it. -/
  param : Option String := none
  start : Option Date := none
  stop : Option Date := none
deriving DecidableEq

end AdOps
