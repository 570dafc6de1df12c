import ContentProtection.Session.Contract

/-!
# Sessions for unprotected content

Such a session is always ready, needs no license and leaves every payload as it is.
-/

namespace ContentProtection.Session

structure Unprotected where
  keySystem : String
  securityManager : Option Int := none
  deriving DecidableEq, Repr

instance : Contract Unprotected where
  keySystem := Unprotected.keySystem
  state _ := .ready
  outputProtection _ := false
  setOutputProtection session _ := session
  securityManager := Unprotected.securityManager
  setSecurityManager session handle := { session with securityManager := handle }
  generate _ _ := pure ()
  keyRequest _ := pure none
  process _ _ := pure (.ok ())
  decrypt _ payload := pure (.ok (), payload)
  waitForState state _ := pure (state == .ready)
  clear := pure ()
  release := pure ()

end ContentProtection.Session
