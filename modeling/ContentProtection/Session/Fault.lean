/-!
# Session faults

Why a key could not be processed or a sample not be decrypted. Each fault has a number, which players show to their users.
-/

namespace ContentProtection.Session

inductive Fault
  /-- The output is restricted for the key. -/
  | outputProtection
  /-- The link to the display must be HDCP 2.2 and is not. -/
  | hdcpCompliance
  /-- A buffer could not be taken to secure memory or back. -/
  | memorySystem
  /-- No native session is open. -/
  | noSession
  /-- The key status never arrived. -/
  | timeout
  /-- A status of the content decryption module, as it gave it. -/
  | status (code : Int)
  deriving DecidableEq, Repr

namespace Fault

def code : Fault → Int
  | outputProtection => 4327
  | hdcpCompliance => 4427
  | memorySystem | noSession | timeout => -1
  | status code => code

def message : Fault → String
  | outputProtection => "HDCP output protection failure"
  | hdcpCompliance => "HDCP compliance check failure"
  | memorySystem => "Memory system failure"
  | noSession => "No CDM session"
  | timeout => "Timed out waiting for key status"
  | status code => s!"CDM status {code}"

end Fault

end ContentProtection.Session
