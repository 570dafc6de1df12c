/-!
# Key statuses

What a content decryption module answers when asked whether a key can be used, with the number that stands for each answer.
-/

namespace ContentProtection

inductive KeyStatus
  | usable
  | expired
  | released
  | outputRestricted
  | outputDownscaled
  | statusPending
  | internalError
  | hardwareError
  | outputRestrictedHdcp22
  deriving DecidableEq, Repr

namespace KeyStatus

/-- The statuses in the order of their codes, from 0. -/
def all : List KeyStatus :=
  [usable, expired, released, outputRestricted, outputDownscaled, statusPending, internalError, hardwareError,
    outputRestrictedHdcp22]

def code : KeyStatus → Int
  | usable => 0
  | expired => 1
  | released => 2
  | outputRestricted => 3
  | outputDownscaled => 4
  | statusPending => 5
  | internalError => 6
  | hardwareError => 7
  | outputRestrictedHdcp22 => 8

def ofCode? (code : Int) : Option KeyStatus := all.find? fun status => status.code = code

end KeyStatus

end ContentProtection
