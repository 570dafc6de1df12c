import ContentProtection.Context

/-!
# The key exchange of clear key sessions

A clear key session goes through the whole exchange on its own but for one thing: the license is asked for, once, and only when the helper or the init data name a key. What comes of it then is what the session makes of the license.
-/

namespace ContentProtection.ClearKey

open ContentProtection.Session (KeyRequest collaborators)

variable {context : Context} {helper : Helper}

/-- The session while a license for a key is asked for. -/
def Session.asking (session : Session) (keyId : Uuid) : Session :=
  { session with key := none, keyId := some keyId, state := .pending }

/-- The request for a license for a key. -/
def keyRequestFor (helper : Helper) (keyId : Uuid) : KeyRequest :=
  { challenge := ⟨requestFor keyId⟩
    url := helper.contents.licenseUrl.getD ""
    kind := .licenseRequest }

/-- What comes of a reply to the request for a license. -/
def answered (session : Session) : Except Error (Option LicenseData) → Except Error Unit × Session
  | .error error => (.error error, session)
  | .ok license =>
    match session.process license with
    | (.error fault, after) => (.error (.session fault), after)
    | (.ok (), after) => (.ok (), after)

theorem exchange_eq (context : Context) (request : KeyRequest) (session : Session) :
    (context.exchange request : ContentProtection.Session.Operation Session _) session =
      .ask session (.fetchLicense request) fun session reply =>
        .done (answered session reply).2 (answered session reply).1 := by
  refine congrArg (Interaction.ask (I := collaborators) session _) (funext fun session => funext fun reply => ?_)
  cases reply with
  | error error => rfl
  | ok license =>
    -- The reply has this form only once its type is unfolded.
    erw [Interaction.andThen]
    dsimp only
    show Interaction.andThen (I := collaborators) _
      (.done (session.process license).2 (session.process license).1) = _
    rw [answered]
    rcases session.process license with ⟨_ | _, after⟩ <;> rfl

/-- What is left of the exchange once the session was made from the init data. -/
theorem acquireLicense_eq (context : Context) (helper : Helper) {made : Session}
    (hmade : (context.clearKeySession helper).generate helper.contents.initData = made) :
    context.acquireLicense helper (context.clearKeySession helper) =
      (if made.state = .error ∨ made.state = .emptySessionId then
        return ← Context.abandon (.other s!"{made.helper.keySystem} session creation failed ({made.state.name})")
      else do
        match ← modifyGet Session.keyRequest with
        | none => Context.abandon (.keyRequestTimeout context.configuration.keyRequestTimeout)
        | some request => context.exchange request : ContentProtection.Session.Operation Session _) made := by
  subst hmade
  rfl

theorem acquireLicense_of_keyId {keyId : Uuid}
    (hkeyId : (context.clearKeySession helper).keyIdFor? helper.contents.initData = some keyId) :
    context.acquireLicense helper (context.clearKeySession helper) =
      context.exchange (keyRequestFor helper keyId) ((context.clearKeySession helper).asking keyId) := by
  have hmade : (context.clearKeySession helper).generate helper.contents.initData =
      { context.clearKeySession helper with key := none, keyId := some keyId } := by
    rw [Session.generate, hkeyId]
    rfl
  rw [acquireLicense_eq context helper hmade]
  rfl

/-- A license with a key for the session is accepted. -/
theorem Session.process_of_select? {session : Session} {license : LicenseData} {key : ContentKey}
    (hselect : (KeySet.parse? license.bytes).bind (·.select? session.keyId) = some key) :
    session.process (some license) =
      (.ok (), { session with key := some key, state := .ready, stateChanged := session.stateChanged.signal }) := by
  rw [process]
  dsimp only [Option.bind_some]
  rw [hselect]

/-- Without a key for the session a license is refused, and the key that the session has stays. -/
theorem Session.process_of_select?_eq_none {session : Session} {license : LicenseData}
    (hselect : (KeySet.parse? license.bytes).bind (·.select? session.keyId) = none) :
    session.process (some license) =
      (.error unusable, { session with state := .error, stateChanged := session.stateChanged.signal }) := by
  rw [process]
  dsimp only [Option.bind_some]
  rw [hselect]

end ContentProtection.ClearKey
