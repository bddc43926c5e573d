import VmFleet.Security.Role

/-!
# Accounts

The stored record of one account. Both its id and its username are unique among accounts.
-/

set_option autoImplicit false

namespace VmFleet

structure Account where
  id : String
  username : String
  firstName : String
  lastName : String
  hashedPassword : String
  salt : String
  role : Security.Role
  deriving DecidableEq, Repr

end VmFleet
