import ContentProtection.Proofs.Interaction
import ContentProtection.Proofs.Native.Exchange

/-!
# Footprints of operations

What an operation can change of a session and what it can ask for, whatever it finds and whatever the replies are. Each operation has a lemma that says so, and none of them depends on what others do while the operation is suspended. An outline that does not look at what an operation can change is carried over it by `Confined.achieves`.
-/

namespace ContentProtection.Native

open ContentProtection.Session (Fault Reply Request Signal ask collaborators)

/-! ### Parts of a session -/

/-- What can change of a session. -/
inductive Part
  | system
  | opened
  | constructed
  | memory
  | lock
  | state
  | challenge
  | key
  | securityManager
  | outputProtection
  | outputLink
  | latch (which : Signal)
  | handles
  deriving DecidableEq

/-- A part is as it was. -/
def Part.Same (before after : Session) : Part → Prop
  | system => after.hasSystem = before.hasSystem
  | opened => after.opened = before.opened
  | constructed => after.constructed = before.constructed
  | memory => after.memory = before.memory
  | lock => after.isLocked = before.isLocked
  | state => after.state = before.state
  | challenge => after.challenge = before.challenge
  | key => after.key = before.key
  | securityManager => after.securityManager = before.securityManager
  | outputProtection => after.outputProtection = before.outputProtection
  | outputLink => after.outputLink = before.outputLink
  | latch which => after.latch which = before.latch which
  | handles => after.handles = before.handles

theorem Part.same_refl (session : Session) (part : Part) : part.Same session session := by
  cases part <;> rfl

theorem Part.Same.trans {before between after : Session} {part : Part} (hfirst : part.Same before between)
    (hthen : part.Same between after) : part.Same before after := by
  cases part <;> exact Eq.trans hthen hfirst

/-- All but some parts are as they were. -/
structure SameBut (parts : List Part) (before after : Session) : Prop where
  setting_eq : after.setting = before.setting
  same : ∀ part, part ∉ parts → part.Same before after

namespace SameBut

variable {parts parts' : List Part} {before between after : Session}

theorem refl (parts : List Part) (session : Session) : SameBut parts session session :=
  ⟨rfl, fun part _ => part.same_refl session⟩

theorem trans (hfirst : SameBut parts before between) (hthen : SameBut parts between after) :
    SameBut parts before after :=
  ⟨hthen.setting_eq.trans hfirst.setting_eq,
    fun part hpart => (hfirst.same part hpart).trans (hthen.same part hpart)⟩

instance : IsPreorder Session (SameBut parts) where
  refl := refl parts
  trans _ _ _ := trans

theorem mono (hsame : SameBut parts before after) (hsub : parts ⊆ parts') : SameBut parts' before after :=
  ⟨hsame.setting_eq, fun part hpart => hsame.same part fun hmem => hpart (hsub hmem)⟩

theorem setLatch (session : Session) (latch : Latch) (which : Signal) :
    SameBut [.latch which] session (session.setLatch latch which) := by
  refine ⟨by cases which <;> rfl, fun part hpart => ?_⟩
  cases part with
  | latch other => cases which <;> cases other <;> first | rfl | simp at hpart
  | _ => cases which <;> rfl

end SameBut

/-! ### Confined operations -/

/-- Whether a request neither makes a native session nor feeds one, nor gets a license for it. -/
def isPlain : Request → Bool
  | .construct _ _ | .update _ _ | .fetchLicense _ => false
  | _ => true

/-- An operation that changes nothing but some parts by itself and asks for nothing that is not plain, unless it may. -/
abbrev Confined {α : Type} (parts : List Part) (may : Request → Prop) (returns : α → Prop)
    (program : Operation α) : Prop :=
  Program.Within (SameBut parts) (fun request => isPlain request = true ∨ may request) returns program

theorem Confined.mono {α : Type} {parts parts' : List Part} {may may' : Request → Prop} {returns : α → Prop}
    {program : Operation α} (hconfined : Confined parts may returns program) (hsub : parts ⊆ parts')
    (hmay : ∀ request, may request → may' request) : Confined parts' may' returns program :=
  fun session => (hconfined session).mono (fun _ _ hsame => hsame.mono hsub) (fun _ => Or.imp_right (hmay _))
    fun _ hvalue => hvalue

theorem confined_modify {parts : List Part} {may : Request → Prop} {change : Session → Session}
    (hsetting : ∀ session, (change session).setting = session.setting)
    (hsame : ∀ session part, part ∉ parts → part.Same session (change session)) :
    Confined parts may (fun _ => True) (modify change : Operation Unit) :=
  within_modifyGet fun session => ⟨hsetting session, hsame session⟩

/-- What a call can change of a session. -/
def Call.changes : Call → List Part
  | generate _ _ =>
    [.system, .opened, .constructed, .lock, .state, .key, .latch .challengeReady, .latch .keyStatusReady]
  | keyRequest _ => [.state, .challenge, .latch .challengeReady]
  | process _ _ => [.state, .key, .latch .keyStatusReady, .latch .stateChanged]
  | decrypt _ _ => [.lock]
  | waitForState _ _ => [.latch .stateChanged]
  | clear => [.lock, .opened, .key, .state]
  | setMemory _ => [.memory]
  | setOutputProtection _ => [.outputProtection]
  | setSecurityManager _ => [.securityManager]
  | changeOutputLink _ => [.outputLink]
  | retain => [.handles]
  | release => [.handles, .opened]

/-- What a call can ask for apart from plain requests. -/
def Call.mayAsk : Call → Request → Prop
  | generate initData customData, request => request = .construct initData customData
  | process license _, request => ∃ given number, license = some given ∧ request = .update number given.bytes
  | _, _ => False

/-- What an event can change of a session, apart from its own handle. -/
def Event.changes : Event → List Part
  | challenge _ _ => [.challenge, .latch .challengeReady]
  | keyUpdate _ => [.key]
  | error _ => []
  | keysUpdated => [.latch .keyStatusReady]

/-! ### Outlines over confined operations -/

/-- An outline does not look at some parts: what holds goes on to hold when only they change and when something is asked for that may be. A session is related to each one that it becomes by such changes and by those that others make meanwhile. -/
structure Overlooks (outline : Outline) (pinned : Nat) (parts : List Part) (may : Request → Prop)
    (related : Session → Session → Prop) : Prop where
  holds_same : ∀ {before after history}, SameBut parts before after → outline.Holds pinned before history →
    outline.Holds pinned after history
  holds_asked : ∀ {session request history}, isPlain request = true ∨ may request →
    outline.Holds pinned session history → outline.Holds pinned session (.asked request :: history)
  holds_replied : ∀ {session request history} (reply : Reply request), isPlain request = true ∨ may request →
    outline.Holds pinned session history → outline.Holds pinned session (.replied request reply :: history)
  related_same : ∀ {before after}, SameBut parts before after → related before after
  related_rely : ∀ {before after}, outline.Rely pinned before after → related before after
  related_trans : ∀ {before between after}, related before between → related between after → related before after

section

variable {α : Type} {outline : Outline} {pinned : Nat} {parts : List Part} {may : Request → Prop}
  {returns : α → Prop} {related : Session → Session → Prop} {asked : List Asked} {history : History}
  {post : Session → List Asked → History → α → Prop}

theorem Overlooks.related_resumes {request : Request} {before after : Session} {earlier later : History}
    (hoverlooks : Overlooks outline pinned parts may related)
    (hback : outline.Resumes pinned request before earlier after later) : related before after := by
  cases hquiet : isQuiet request with
  | true =>
    rw [(hback.quiet hquiet).1]
    exact hoverlooks.related_same (.refl parts before)
  | false => exact hoverlooks.related_rely (hback.rely hquiet)

theorem Overlooks.achieves {start before : Session} {interaction : Interaction collaborators Session α}
    (hoverlooks : Overlooks outline pinned parts may related)
    (hsteps : interaction.Within (SameBut parts) (fun request => isPlain request = true ∨ may request) returns before)
    (hholds : outline.Holds pinned before history) (hstart : related start before)
    (hnext : ∀ session' asked' history' value, outline.Holds pinned session' history' → related start session' →
      returns value → post session' asked' history' value) :
    outline.Achieves pinned interaction asked history post := by
  induction interaction generalizing before asked history with
  | done after value =>
    have hafter := hoverlooks.related_trans hstart (hoverlooks.related_same hsteps.1)
    exact hnext _ _ _ _ (hoverlooks.holds_same hsteps.1 hholds) hafter hsteps.2
  | ask after request resume ih =>
    obtain ⟨hsame, hrequest, hresume⟩ := hsteps
    have hafter := hoverlooks.related_trans hstart (hoverlooks.related_same hsame)
    refine ⟨hoverlooks.holds_asked hrequest (hoverlooks.holds_same hsame hholds), ?_⟩
    intro session' history' reply hback
    refine ih session' reply (hresume session' reply) (hoverlooks.holds_replied reply hrequest hback.holds) ?_
    exact hoverlooks.related_trans hafter (hoverlooks.related_resumes hback)

/-- An outline goes on over an operation that is confined to what it does not look at. -/
theorem Confined.achieves {program : Operation α} {session : Session}
    (hoverlooks : Overlooks outline pinned parts may related) (hconfined : Confined parts may returns program)
    (hholds : outline.Holds pinned session history)
    (hnext : ∀ session' asked' history' value, outline.Holds pinned session' history' → related session session' →
      returns value → post session' asked' history' value) :
    outline.Achieves pinned (program session) asked history post :=
  hoverlooks.achieves (hconfined session) hholds (hoverlooks.related_same (.refl parts session)) hnext

end

variable {parts : List Part} {may : Request → Prop}

/-! ### Requests, latches and the lock -/

theorem confined_plain {request : Request} (hplain : isPlain request = true) :
    Confined parts may (fun _ => True) (ask request : Operation _) :=
  within_ask (.inl hplain)

theorem confined_setState (state : KeyState) (hstate : .state ∈ parts) :
    Confined parts may (fun _ => True) (setState state) := by
  refine confined_modify (fun _ => rfl) fun session part hpart => ?_
  cases part <;> first | rfl | exact absurd hstate hpart

theorem confined_signal (which : Signal) (hlatch : .latch which ∈ parts) :
    Confined parts may (fun _ => True) (signal which) :=
  within_modifyGet fun session => (SameBut.setLatch session _ which).mono (by simpa using hlatch)

theorem confined_takeSignal (which : Signal) (hlatch : .latch which ∈ parts) :
    Confined parts may (fun _ => True) (takeSignal which) :=
  within_modifyGet fun session => (SameBut.setLatch session _ which).mono (by simpa using hlatch)

theorem confined_await (which : Signal) (timeout : Duration) (hlatch : .latch which ∈ parts) :
    Confined parts may (fun _ => True) (await which timeout) := by
  refine (confined_takeSignal which hlatch).bind fun taken _ => within_ite (within_pure trivial) ?_
  exact (confined_plain rfl).bind fun _ _ => confined_takeSignal which hlatch

theorem confined_awaitUnlocked : Confined parts may (fun _ => True) awaitUnlocked :=
  within_get.bind fun _ _ => within_ite (confined_plain rfl) (within_pure trivial)

theorem confined_lock (hlock : .lock ∈ parts) : Confined parts may (fun _ => True) lock := by
  refine confined_awaitUnlocked.bind fun _ _ => confined_modify (fun _ => rfl) fun session part hpart => ?_
  cases part <;> first | rfl | exact absurd hlock hpart

theorem confined_unlock (hlock : .lock ∈ parts) : Confined parts may (fun _ => True) unlock := by
  refine confined_modify (fun _ => rfl) fun session part hpart => ?_
  cases part <;> first | rfl | exact absurd hlock hpart

theorem confined_openSession : Confined parts may (fun _ => True) openSession :=
  confined_awaitUnlocked.bind fun _ _ => within_get.bind fun _ _ => within_pure trivial

theorem confined_closeOpened (hopened : .opened ∈ parts) : Confined parts may (fun _ => True) closeOpened := by
  refine within_get.bind fun session _ => ?_
  cases session.opened with
  | none => exact within_pure trivial
  | some number =>
    refine Program.Within.bind (confined_modify (fun _ => rfl) fun session part hpart => ?_)
      fun _ _ => confined_plain rfl
    cases part <;> first | rfl | exact absurd hopened hpart

/-! ### Making a native session -/

theorem confined_ensureSystem (hsystem : .system ∈ parts) : Confined parts may (fun _ => True) ensureSystem := by
  refine within_get.bind fun _ _ => within_ite (within_pure trivial) ?_
  refine within_get.bind fun session _ => (confined_plain rfl).bind fun created _ => ?_
  refine Program.Within.bind (confined_modify (fun _ => rfl) fun session part hpart => ?_)
    fun _ _ => within_pure trivial
  cases part <;> first | rfl | exact absurd hsystem hpart

theorem confined_numberConstructed (hconstructed : .constructed ∈ parts) :
    Confined parts may (fun _ => True) numberConstructed := by
  refine within_modifyGet fun session => ⟨rfl, fun part hpart => ?_⟩
  cases part <;> first | rfl | exact absurd hconstructed hpart

theorem confined_construct (initData : Bytes) (customData : Option Bytes) :
    Confined [.opened, .constructed, .state] (· = .construct initData customData) (fun _ => True)
      (construct initData customData) := by
  refine Program.Within.bind (within_ask (.inr rfl)) fun made _ => ?_
  cases made with
  | error status => exact confined_setState .error (by simp)
  | ok id =>
    refine (confined_numberConstructed (by simp)).bind fun number _ => within_ite ?_ ?_
    · exact (confined_plain rfl).bind fun _ _ => confined_setState .emptySessionId (by simp)
    · refine confined_modify (fun _ => rfl) fun session part hpart => ?_
      cases part <;> first | rfl | simp at hpart

theorem confined_generate (initData : Bytes) (customData : Option Bytes) :
    Confined [.system, .opened, .constructed, .lock, .state, .key, .latch .challengeReady, .latch .keyStatusReady]
      (· = .construct initData customData) (fun _ => True) (generate initData customData) := by
  refine (confined_lock (by decide)).bind fun _ _ => (confined_ensureSystem (by decide)).bind fun _ _ => ?_
  refine within_ite ?_ ((confined_setState .error (by decide)).bind fun _ _ => confined_unlock (by decide))
  refine (confined_closeOpened (by decide)).bind fun _ _ => ?_
  refine Program.Within.bind (confined_modify (fun _ => rfl) fun session part hpart => ?_) fun _ _ => ?_
  · cases part with
    | latch which => cases which <;> first | rfl | exact absurd (by decide) hpart
    | _ => first | rfl | exact absurd (by decide) hpart
  · refine ((confined_construct initData customData).mono (by decide) fun _ hmay => hmay).bind fun _ _ => ?_
    exact confined_unlock (by decide)

/-! ### The key exchange -/

theorem confined_takeChallenge (hchallenge : .challenge ∈ parts) :
    Confined parts may (fun _ => True) takeChallenge := by
  refine within_modifyGet fun session => ⟨rfl, fun part hpart => ?_⟩
  cases part <;> first | rfl | exact absurd hchallenge hpart

theorem confined_keyRequest (timeout : Duration) :
    Confined [.state, .challenge, .latch .challengeReady] (fun _ => False) (fun _ => True) (keyRequest timeout) := by
  refine (confined_setState .error (by decide)).bind fun _ _ => ?_
  refine (confined_await .challengeReady timeout (by decide)).bind fun ready _ => ?_
  refine within_ite (within_pure trivial) ?_
  refine (confined_takeChallenge (by decide)).bind fun challenge _ => within_ite (within_pure trivial) ?_
  exact (confined_setState .pending (by decide)).bind fun _ _ => within_pure trivial

theorem confined_feedLicense (license : LicenseData) :
    Confined parts (fun request => ∃ number, request = .update number license.bytes) (fun _ => True)
      (feedLicense license) := by
  refine confined_openSession.bind fun opened _ => ?_
  cases opened with
  | none => exact within_pure trivial
  | some number => exact (within_ask (.inr ⟨number, rfl⟩)).bind fun _ _ => within_pure trivial

theorem confined_resolveKeyStatus (hkey : .key ∈ parts) :
    Confined parts may (fun _ => True) resolveKeyStatus := by
  refine confined_openSession.bind fun opened _ => within_get.bind fun session _ => ?_
  dsimp only
  cases session.key.status with
  | some status => exact within_pure trivial
  | none =>
    cases opened with
    | none => exact within_pure trivial
    | some number =>
      refine within_ite (within_pure trivial) ((confined_plain rfl).bind fun status _ => ?_)
      refine Program.Within.bind (confined_modify (fun _ => rfl) fun session part hpart => ?_) fun _ _ =>
        within_pure trivial
      cases part <;> first | rfl | exact absurd hkey hpart

theorem confined_settle (timeout : Duration) :
    Confined [.state, .key, .latch .keyStatusReady, .latch .stateChanged] may (fun _ => True) (settle timeout) := by
  refine (confined_await _ timeout (by decide)).bind fun _ _ => (confined_resolveKeyStatus (by decide)).bind
    fun status _ => (confined_setState _ (by decide)).bind fun _ _ => ?_
  have hrest : Confined [.state, .key, .latch .keyStatusReady, .latch .stateChanged] may (fun _ => True)
      (do signal .stateChanged; return outcome status : Operation (Except Fault Unit)) :=
    (confined_signal _ (by decide)).bind fun _ _ => within_pure trivial
  exact within_ite (within_get.bind fun _ _ => (confined_plain rfl).bind fun _ _ => hrest) hrest

theorem confined_process (license : Option LicenseData) (timeout : Duration) :
    Confined [.state, .key, .latch .keyStatusReady, .latch .stateChanged]
      (fun request => ∃ given number, license = some given ∧ request = .update number given.bytes) (fun _ => True)
      (process license timeout) := by
  cases license with
  | none => exact confined_settle timeout
  | some license =>
    rw [process_some]
    refine Program.Within.bind ((confined_feedLicense license).mono (List.Subset.refl _) ?_) fun _ _ =>
      confined_settle timeout
    rintro _ ⟨number, rfl⟩
    exact ⟨license, number, rfl, rfl⟩

/-! ### Decrypting -/

/-- Not the fault for a link that is not protected as it must be. -/
def NotOfLink (result : Except Fault Unit × Bytes) : Prop := result.1 ≠ .error .hdcpCompliance

theorem confined_decryptThrough (memory : MemoryId) (number : Nat) (encryption : Sample.Encryption) (payload : Bytes) :
    Confined parts may NotOfLink (decryptThrough memory number encryption payload) := by
  refine (confined_plain rfl).bind fun encoded _ => ?_
  cases encoded with
  | none => exact within_pure nofun
  | some encoded =>
    refine (confined_plain rfl).bind fun decrypted _ => ?_
    obtain ⟨status | _, decrypted⟩ := decrypted
    · exact (confined_plain rfl).bind fun _ _ => within_pure nofun
    · refine (confined_plain rfl).bind fun decoded _ => ?_
      obtain ⟨_ | _, buffer⟩ := decoded <;> exact within_pure nofun

theorem confined_decryptOpened (number : Nat) (encryption : Sample.Encryption) (payload : Bytes) :
    Confined parts may NotOfLink (decryptOpened number encryption payload) := by
  refine within_get.bind fun session _ => ?_
  cases session.memory with
  | some memory => exact confined_decryptThrough memory number encryption payload
  | none =>
    refine (confined_plain rfl).bind fun decrypted _ => ?_
    obtain ⟨status | _, buffer⟩ := decrypted <;> exact within_pure nofun

/-- What is left of decrypting when output protection does not stand against it. -/
def decryptLocked (encryption : Sample.Encryption) (payload : Bytes) : Operation (Except Fault Unit × Bytes) := do
  lock
  let result ← match (← get).opened with
    | none => pure (.error .noSession, payload)
    | some number => decryptOpened number encryption payload
  unlock
  return result

theorem decrypt_eq (encryption : Sample.Encryption) (payload : Bytes) :
    decrypt encryption payload = (do
      if (← get).violatesOutput then return (.error .hdcpCompliance, payload)
      decryptLocked encryption payload) :=
  rfl

theorem confined_decryptLocked (encryption : Sample.Encryption) (payload : Bytes) :
    Confined [.lock] (fun _ => False) NotOfLink (decryptLocked encryption payload) := by
  have hrest : ∀ result, NotOfLink result →
      Confined [.lock] (fun _ => False) NotOfLink (do unlock; return result : Operation (Except Fault Unit × Bytes)) :=
    fun result hresult => (confined_unlock (by simp)).bind fun _ _ => within_pure hresult
  refine (confined_lock (by simp)).bind fun _ _ => within_get.bind fun session _ => ?_
  cases session.opened with
  | none => exact hrest _ nofun
  | some number => exact (confined_decryptOpened number encryption payload).bind hrest

theorem confined_decrypt (encryption : Sample.Encryption) (payload : Bytes) :
    Confined [.lock] (fun _ => False) (fun _ => True) (decrypt encryption payload) := by
  rw [decrypt_eq]
  refine within_get.bind fun _ _ => within_ite (within_pure trivial) fun session => ?_
  exact (confined_decryptLocked encryption payload session).mono (fun _ _ => id) (fun _ => id) fun _ _ => trivial

/-! ### State and handles -/

theorem confined_waitForState (state : KeyState) (timeout : Duration) :
    Confined [.latch .stateChanged] (fun _ => False) (fun _ => True) (waitForState state timeout) := by
  refine within_get.bind fun _ _ => within_ite (within_pure trivial) ?_
  refine (confined_await _ timeout (by simp)).bind fun _ _ => within_get.bind fun _ _ => within_pure trivial

theorem confined_clear : Confined [.lock, .opened, .key, .state] (fun _ => False) (fun _ => True) clear := by
  refine (confined_lock (by simp)).bind fun _ _ => (confined_closeOpened (by simp)).bind fun _ _ => ?_
  refine Program.Within.bind (confined_modify (fun _ => rfl) fun session part hpart => ?_) fun _ _ =>
    confined_unlock (by simp)
  cases part <;> first | rfl | simp at hpart

theorem confined_setMemory (memory : Option MemoryId) :
    Confined [.memory] (fun _ => False) (fun _ => True) (setMemory memory) := by
  refine confined_awaitUnlocked.bind fun _ _ => confined_modify (fun _ => rfl) fun session part hpart => ?_
  cases part <;> first | rfl | simp at hpart

theorem confined_retain (hhandles : .handles ∈ parts) : Confined parts may (fun _ => True) retain := by
  refine confined_modify (fun _ => rfl) fun session part hpart => ?_
  cases part <;> first | rfl | exact absurd hhandles hpart

theorem confined_release (hhandles : .handles ∈ parts) (hopened : .opened ∈ parts) :
    Confined parts may (fun _ => True) release := by
  refine within_get.bind fun session _ =>
    Program.Within.bind (confined_modify (fun _ => rfl) fun session part hpart => ?_)
    fun _ _ => within_ite (confined_closeOpened hopened) (within_pure trivial)
  cases part <;> first | rfl | exact absurd hhandles hpart

/-! ### Events -/

theorem confined_onChallenge (url : String) (payload : Bytes) :
    Confined [.challenge, .latch .challengeReady] may (fun _ => True) (onChallenge url payload) := by
  refine within_get.bind fun session _ => within_ite ?_ ?_
  · exact within_ite (confined_plain rfl) (within_pure trivial)
  · refine Program.Within.bind (confined_modify (fun _ => rfl) fun session part hpart => ?_) fun _ _ => ?_
    · cases part <;> first | rfl | simp at hpart
    · exact (confined_signal _ (by simp)).bind fun _ _ => within_ite (confined_plain rfl) (within_pure trivial)

theorem confined_onKeyUpdate (keyId : Bytes) :
    Confined [.key] may (fun _ => True) (onKeyUpdate keyId) := by
  refine within_get.bind fun session _ => ?_
  cases if session.isLocked then none else session.opened with
  | none =>
    refine confined_modify (fun _ => rfl) fun session part hpart => ?_
    cases part <;> first | rfl | simp at hpart
  | some number =>
    refine (confined_plain rfl).bind fun status _ => confined_modify (fun _ => rfl) fun session part hpart => ?_
    cases part <;> first | rfl | simp at hpart

theorem confined_handle (event : Event) : Confined event.changes may (fun _ => True) (handle event) := by
  cases event with
  | challenge url payload => exact confined_onChallenge url payload
  | keyUpdate keyId => exact confined_onKeyUpdate keyId
  | error message => exact within_pure trivial
  | keysUpdated => exact confined_signal _ (by simp [Event.changes])

theorem confined_deliver (event : Event) :
    Confined (.handles :: .opened :: event.changes) (fun _ => False) (fun _ => True) (deliver event) := by
  refine within_get.bind fun session _ => within_ite (within_pure trivial) ?_
  refine (confined_retain (by simp)).bind fun _ _ => ?_
  refine ((confined_handle event).mono ?_ fun _ hmay => hmay).bind fun _ _ => confined_release (by simp) (by simp)
  exact List.subset_cons_of_subset _ (List.subset_cons_self _ _)

/-! ### Calls -/

theorem confined_call (made : Call) : Confined made.changes made.mayAsk (fun _ => True) made.program := by
  cases made with
  | generate initData customData => exact confined_generate initData customData
  | keyRequest timeout => exact confined_keyRequest timeout
  | process license timeout => exact confined_process license timeout
  | decrypt encryption payload => exact confined_decrypt encryption payload
  | waitForState state timeout => exact confined_waitForState state timeout
  | clear => exact confined_clear
  | setMemory memory => exact confined_setMemory memory
  | setOutputProtection enabled =>
    refine confined_modify (fun _ => rfl) fun session part hpart => ?_
    cases part <;> first | rfl | simp [Call.changes] at hpart
  | setSecurityManager handle =>
    refine confined_modify (fun _ => rfl) fun session part hpart => ?_
    cases part <;> first | rfl | simp [Call.changes] at hpart
  | changeOutputLink link =>
    refine confined_modify (fun _ => rfl) fun session part hpart => ?_
    cases part <;> first | rfl | simp [Call.changes] at hpart
  | retain => exact confined_retain (by decide)
  | release => exact confined_release (by decide) (by decide)

end ContentProtection.Native
