import ContentProtection.Proofs.Native.Activities
import ContentProtection.Proofs.Native.Chronicle

/-!
# Every activity keeps to the chronicle

Most steps neither set the state nor touch the slot, the lock or the open native session; programs of such steps are steady, and `Steady.bind` puts them together. What is left are the few operations that do: they get a lemma each, and `chronicle_met` puts all on top of custody.
-/

namespace ContentProtection.Native

open ContentProtection.Session (Fault KeyRequest Request Signal ask)
open Outline

variable {pinned : Nat} {session : Session} {asked : List Asked} {history : History}

/-! ### Steady programs -/

/-- A program after which all is told that was told before. -/
def Steady {α : Type} (program : Operation α) : Prop :=
  ∀ (pinned : Nat) (session : Session) (asked : List Asked) (history : History)
    (post : Session → List Asked → History → α → Prop), Told session.standing history →
      (∀ (session' : Session) asked' (history' : History) value, Told session'.standing history' →
        Anchored pinned session.standing session'.standing → post session' asked' history' value) →
      chronicle.Achieves pinned (program session) asked history post

section

variable {α β : Type}

theorem steady_pure (value : α) : Steady (pure value) := by
  intro pinned session asked history post htold hnext
  exact achieves_pure.mpr (hnext _ _ _ _ htold (.refl pinned session.standing))

theorem steady_get : Steady (get : Operation Session) := by
  intro pinned session asked history post htold hnext
  exact achieves_get.mpr (hnext _ _ _ _ htold (.refl pinned session.standing))

theorem steady_modifyGet {change : Session → α × Session}
    (hsame : ∀ session, (change session).2.standing = session.standing) :
    Steady (modifyGet change : Operation α) := by
  intro pinned session asked history post htold hnext
  refine achieves_modifyGet.mpr (hnext _ _ _ _ ?_ ?_)
  · rw [hsame]
    exact htold
  · rw [hsame]
    exact .refl pinned session.standing

theorem steady_modify {change : Session → Session} (hsame : ∀ session, (change session).standing = session.standing) :
    Steady (modify change : Operation Unit) :=
  steady_modifyGet hsame

/-- A request that shows nothing, whatever the reply. -/
theorem steady_ask {request : Request} (hasked : (Entry.asked request).state? = none)
    (hslot : (Entry.asked request).slot? = none) (hreplied : ∀ reply, (Entry.replied request reply).state? = none) :
    Steady (ask request : Operation _) := by
  intro pinned session asked history post htold hnext
  refine achieves_ask.mpr ⟨htold.cons hasked hslot, ?_⟩
  intro session' history' reply hback
  exact hnext _ _ _ _ (Told.cons hback.holds (hreplied reply) rfl) hback.anchored

theorem Steady.bind {program : Operation α} {next : α → Operation β} (hfirst : Steady program)
    (hthen : ∀ value, Steady (next value)) : Steady (program >>= next) := by
  intro pinned session asked history post htold hnext
  refine achieves_bind.mpr (hfirst pinned session asked history _ htold ?_)
  intro between asked' history' value hbetween hanchored
  refine hthen value pinned between asked' history' post hbetween ?_
  intro session' asked'' history'' value' htold' hanchored'
  exact hnext _ _ _ _ htold' (hanchored.trans hanchored')

theorem steady_ite {condition : Prop} [Decidable condition] {program program' : Operation α} (hthen : Steady program)
    (helse : Steady program') : Steady (if condition then program else program') := by
  split
  · exact hthen
  · exact helse

end

theorem steady_signal {which : Signal} (hwhich : which ≠ .challengeReady) : Steady (signal which) :=
  steady_modify fun session => session.standing_setLatch _ hwhich

theorem steady_takeSignal {which : Signal} (hwhich : which ≠ .challengeReady) : Steady (takeSignal which) :=
  steady_modifyGet fun session => session.standing_setLatch _ hwhich

theorem steady_await {which : Signal} (hwhich : which ≠ .challengeReady) (timeout : Duration) :
    Steady (await which timeout) := by
  refine (steady_takeSignal hwhich).bind fun taken => steady_ite (steady_pure true) ?_
  exact (steady_ask rfl rfl fun _ => rfl).bind fun _ => steady_takeSignal hwhich

theorem steady_awaitUnlocked : Steady awaitUnlocked :=
  steady_get.bind fun _ => steady_ite (steady_ask rfl rfl fun _ => rfl) (steady_pure ())

theorem steady_openSession : Steady openSession :=
  steady_awaitUnlocked.bind fun _ => steady_get.bind fun session => steady_pure session.opened

theorem steady_feedLicense (license : LicenseData) : Steady (feedLicense license) := by
  refine steady_openSession.bind fun opened => ?_
  cases opened with
  | none => exact steady_pure ()
  | some number => exact (steady_ask rfl rfl fun _ => rfl).bind fun _ => steady_pure ()

theorem steady_resolveKeyStatus : Steady resolveKeyStatus := by
  refine steady_openSession.bind fun opened => steady_get.bind fun session => ?_
  dsimp only
  cases session.key.status with
  | some status => exact steady_pure _
  | none =>
    cases opened with
    | none => exact steady_pure none
    | some number =>
      refine steady_ite (steady_pure none) ((steady_ask rfl rfl fun _ => rfl).bind fun status => ?_)
      refine Steady.bind (steady_modify ?_) fun _ => steady_pure (some status)
      intro _
      rfl

theorem steady_decryptThrough (memory : MemoryId) (number : Nat) (encryption : Sample.Encryption) (payload : Bytes) :
    Steady (decryptThrough memory number encryption payload) := by
  refine (steady_ask rfl rfl fun _ => rfl).bind fun encoded => ?_
  cases encoded with
  | none => exact steady_pure _
  | some encoded =>
    refine (steady_ask rfl rfl fun _ => rfl).bind fun decrypted => ?_
    obtain ⟨status | _, decrypted⟩ := decrypted
    · exact (steady_ask rfl rfl fun _ => rfl).bind fun _ => steady_pure _
    · refine (steady_ask rfl rfl fun _ => rfl).bind fun decoded => ?_
      obtain ⟨_ | _, buffer⟩ := decoded <;> exact steady_pure _

theorem steady_decryptOpened (number : Nat) (encryption : Sample.Encryption) (payload : Bytes) :
    Steady (decryptOpened number encryption payload) := by
  refine steady_get.bind fun session => ?_
  cases session.memory with
  | some memory => exact steady_decryptThrough memory number encryption payload
  | none =>
    refine (steady_ask rfl rfl fun _ => rfl).bind fun decrypted => ?_
    obtain ⟨status | _, buffer⟩ := decrypted <;> exact steady_pure _

theorem steady_waitForState (state : KeyState) (timeout : Duration) : Steady (waitForState state timeout) := by
  refine steady_get.bind fun session => steady_ite (steady_pure true) ?_
  exact (steady_await (by decide) timeout).bind fun _ => steady_get.bind fun session => steady_pure _

theorem steady_setMemory (memory : Option MemoryId) : Steady (setMemory memory) :=
  steady_awaitUnlocked.bind fun _ => steady_modify fun _ => rfl

/-! ### Under the lock -/

theorem tells_lock {post : Session → List Asked → History → Unit → Prop} (htold : Told session.standing history)
    (hnext : ∀ locked : Session, Told locked.standing history → locked.isLocked = true →
      (locked.state = .ready → 0 < locked.handles → locked.opened ≠ none) → session.isLocked = false →
      Anchored pinned { session.standing with isLocked := true } locked.standing → post locked asked history ()) :
    chronicle.Achieves pinned (lock session) asked history post := by
  refine achieves_bind.mpr (achieves_ite.mpr ⟨?_, ?_⟩)
  · intro _
    refine achieves_ask.mpr ⟨htold.cons rfl rfl, ?_⟩
    intro _ _ _ hback
    exact absurd rfl hback.1
  · intro hunlocked
    have hfree : session.isLocked = false := by simpa using hunlocked
    refine hnext _ htold.locked rfl ?_ hfree (.refl pinned _)
    intro hready hhandle
    exact htold.opened_of_ready hready hhandle hfree

/-- Only under the lock or after the last handle is gone is a native session closed. -/
theorem tells_closeOpened {post : Session → List Asked → History → Unit → Prop} (htold : Told session.standing history)
    (hlocked : session.isLocked = true ∨ session.handles = 0)
    (hnext : ∀ (session' : Session) asked' (history' : History), Told session'.standing history' →
      session'.isLocked = session.isLocked → post session' asked' history' ()) :
    chronicle.Achieves pinned (closeOpened session) asked history post := by
  refine achieves_bind.mpr (achieves_get.mpr ?_)
  cases hopened : session.opened with
  | none => exact hnext session asked history htold rfl
  | some number =>
    have hclosing : Told { session.standing with opened := none } history := by
      rcases hlocked with hlocked | hgone
      · exact htold.withOpened hlocked none
      · exact .ofGone htold.state_eq hgone
    refine achieves_bind.mpr (achieves_modify.mpr (achieves_ask.mpr ⟨hclosing.cons rfl rfl, ?_⟩))
    intro session' history' _ hback
    exact hnext _ _ _ (Told.cons hback.holds rfl rfl) hback.anchored.isLocked_eq

theorem tells_ensureSystem {post : Session → List Asked → History → Bool → Prop}
    (htold : Told session.standing history)
    (hthere : ∀ (session' : Session) asked' (history' : History), Told session'.standing history' →
      session'.isLocked = session.isLocked → post session' asked' history' true)
    (hmissing : ∀ (session' : Session) asked' (history' : History) keySystem,
      Told { session'.standing with state := .error } (.replied (.createSystem keySystem) false :: history') →
      isRefused asked' = false → post session' asked' (.replied (.createSystem keySystem) false :: history') false) :
    chronicle.Achieves pinned (ensureSystem session) asked history post := by
  refine achieves_bind.mpr (achieves_get.mpr (achieves_ite.mpr ⟨?_, ?_⟩))
  · intro _
    exact hthere session asked history htold rfl
  · intro _
    refine achieves_bind.mpr (achieves_get.mpr (achieves_bind.mpr (achieves_ask.mpr ⟨htold.cons rfl rfl, ?_⟩)))
    intro session' history' created hback
    cases created with
    | true => exact hthere _ _ _ (Told.cons hback.holds rfl rfl) hback.anchored.isLocked_eq
    | false => exact hmissing _ _ _ _ (Told.cons_state hback.holds rfl rfl nofun) rfl

/-- When the construction is over, the lock can be given back. That a native session had no id shows in the end of the activity only. -/
theorem tells_construct {initData : Bytes} {customData : Option Bytes} (entry : Session)
    {post : Session → List Asked → History → Unit → Prop}
    (htold : Told session.standing (.asked (.construct initData customData) :: history))
    (hlocked : session.isLocked = true)
    (hnext : ∀ (session' : Session) asked' (history' : History),
      Told { session'.standing with isLocked := false }
        (.ended ⟨.call (.generate initData customData), entry, asked', ()⟩ :: history') →
      (∃ session, ⟨session, .construct initData customData⟩ ∈ asked') → post session' asked' history' ()) :
    chronicle.Achieves pinned (construct initData customData session) asked history post := by
  refine achieves_bind.mpr (achieves_ask.mpr ⟨htold, ?_⟩)
  intro session' history' reply hback
  have hlocked' : session'.isLocked = true := hback.anchored.isLocked_eq.trans hlocked
  cases reply with
  | error status =>
    have hfailed : Told { session'.standing with state := .error }
        (.replied (.construct initData customData) (Except.error status) :: history') :=
      Told.cons_state hback.holds rfl rfl nofun
    refine achieves_modify.mpr (hnext _ _ _ ?_ ⟨_, List.mem_cons_self⟩)
    exact Told.cons (hfailed.unlocked nofun) rfl rfl
  | ok id =>
    have hmade : Told session'.standing (.replied (.construct initData customData) (Except.ok id) :: history') :=
      Told.cons hback.holds rfl rfl
    refine achieves_bind.mpr (achieves_modifyGet.mpr (achieves_ite.mpr ⟨?_, ?_⟩))
    · -- the id is empty: the native session is closed again without having been open
      intro _
      refine achieves_bind.mpr (achieves_ask.mpr ⟨hmade.cons rfl rfl, ?_⟩)
      intro session'' history'' reply hback'
      have hclosed : Told session''.standing (.replied (.close (session'.constructed + 1)) reply :: history'') :=
        Told.cons hback'.holds rfl rfl
      refine achieves_modify.mpr (hnext _ _ _ (Told.unlocked ?_ nofun) ⟨_, .tail _ List.mem_cons_self⟩)
      exact hclosed.cons_state rfl rfl nofun
    · intro _
      refine achieves_modify.mpr (hnext _ _ _ ?_ ⟨_, List.mem_cons_self⟩)
      exact Told.cons ((hmade.withOpened hlocked' _).unlocked fun _ _ => nofun) rfl rfl

theorem tells_generate {initData : Bytes} {customData : Option Bytes} (entry : Session)
    {post : Session → List Asked → History → Unit → Prop} (htold : Told session.standing history)
    (hnext : ∀ (session' : Session) asked' (history' : History),
      Told session'.standing (.ended ⟨.call (.generate initData customData), entry, asked', ()⟩ :: history') →
      chronicle.Report ⟨.call (.generate initData customData), entry, asked', ()⟩ session' history' →
      post session' asked' history' ()) :
    chronicle.Achieves pinned (generate initData customData session) asked history post := by
  refine achieves_bind.mpr (tells_lock htold ?_)
  intro locked hlocked hlock _ _ _
  refine achieves_bind.mpr (tells_ensureSystem hlocked ?_ ?_)
  · intro ensured _ _ hensured hensuredLock
    refine achieves_bind.mpr (tells_closeOpened hensured (.inl (hensuredLock.trans hlock)) ?_)
    intro closed asked' history' hclosed hclosedLock
    have hforgotten : Told closed.forgetExchange.standing (.asked (.construct initData customData) :: history') :=
      hclosed.cons_slot rfl rfl
    refine achieves_bind.mpr (achieves_modify.mpr (achieves_bind.mpr ?_))
    refine tells_construct entry hforgotten (hclosedLock.trans (hensuredLock.trans hlock)) ?_
    intro session' asked'' history'' htold' hasked
    exact achieves_modify.mpr (hnext _ _ _ htold' (.inl hasked))
  · intro session' asked' history' keySystem hmissing hasked
    refine achieves_bind.mpr (achieves_modify.mpr (achieves_modify.mpr (hnext _ _ _ ?_ (.inr ⟨_, _, rfl⟩))))
    refine Told.cons (hmissing.unlocked nofun) ?_ rfl
    simp [Entry.state?, Record.state?, hasked]

theorem tells_clear (entry : Session) {post : Session → List Asked → History → Unit → Prop}
    (htold : Told session.standing history)
    (hnext : ∀ (session' : Session) asked' (history' : History),
      Told session'.standing (.ended ⟨.call .clear, entry, asked', ()⟩ :: history') →
      post session' asked' history' ()) :
    chronicle.Achieves pinned (clear session) asked history post := by
  refine achieves_bind.mpr (tells_lock htold ?_)
  intro locked hlocked hlock _ _ _
  refine achieves_bind.mpr (tells_closeOpened hlocked (.inl hlock) ?_)
  intro closed asked' history' hclosed _
  refine achieves_bind.mpr (achieves_modify.mpr (achieves_modify.mpr (hnext _ _ _ ?_)))
  have hcleared : Told { closed.standing with state := .init }
      (.ended ⟨.call .clear, entry, asked', ()⟩ :: history') :=
    hclosed.cons_state rfl rfl nofun
  exact hcleared.unlocked nofun

/-- Nothing is closed while a payload is decrypted. -/
theorem steady_decrypt (encryption : Sample.Encryption) (payload : Bytes) : Steady (decrypt encryption payload) := by
  intro pinned session asked history post htold hnext
  refine achieves_bind.mpr (achieves_get.mpr (achieves_ite.mpr ⟨?_, ?_⟩))
  · intro _
    exact hnext _ _ _ _ htold (.refl pinned session.standing)
  · intro _
    refine achieves_bind.mpr (tells_lock htold ?_)
    intro locked hlocked hlock hready hunlocked hanchored
    refine achieves_bind.mpr (achieves_get.mpr ?_)
    cases hopened : locked.opened with
    | none =>
      refine achieves_bind.mpr (achieves_pure.mpr (achieves_bind.mpr (achieves_modify.mpr ?_)))
      exact hnext _ _ _ _ (hlocked.unlocked hready) (hanchored.unlocked hunlocked)
    | some number =>
      refine achieves_bind.mpr (steady_decryptOpened number encryption payload pinned _ _ _ _ hlocked ?_)
      intro decrypted _ _ result hdecrypted hanchored'
      refine achieves_bind.mpr (achieves_modify.mpr (hnext _ _ _ _ (hdecrypted.unlocked ?_) ?_))
      · intro _ _ hnone
        cases ((hanchored'.opened_eq hlock).trans hopened).symm.trans hnone
      · exact (hanchored.trans hanchored').unlocked hunlocked

/-! ### Key requests -/

/-- Hands out a challenge that was taken. -/
def offer (challenge : PendingChallenge) : Operation (Option KeyRequest) := do
  if challenge.payload.isEmpty then return none
  setState .pending
  return some
    { challenge := ⟨Challenge.body challenge.payload⟩
      url := challenge.url
      kind := Challenge.kind challenge.payload }

/-- What is left of a key request once its wait is over. -/
def handOut (isReady : Bool) : Operation (Option KeyRequest) := do
  if !isReady then return none
  offer (← takeChallenge)

theorem keyRequest_eq (timeout : Duration) :
    keyRequest timeout = (do setState .error; let isReady ← await .challengeReady timeout; handOut isReady) :=
  rfl

/-- Whoever takes the signal hands out what is in the slot. -/
theorem tells_takeSignal_handOut {timeout : Duration} {entry : Session} {isReady : Bool}
    {post : Session → List Asked → History → Option KeyRequest → Prop}
    (hsignalled : session.challengeReady.isSignalled = isReady) (htold : Told session.standing history)
    (hhandle : 0 < session.handles)
    (hnext : ∀ (session' : Session) asked' (history' : History) request,
      Told session'.standing (.ended ⟨.call (.keyRequest timeout), entry, asked', request⟩ :: history') →
      request = history'.slot.bind PendingChallenge.request? → post session' asked' history' request) :
    chronicle.Achieves pinned (handOut isReady (session.setLatch {} .challengeReady)) asked history post := by
  have hslot : session.slot = history.slot := htold.slot_eq hhandle
  have htaken : Told (session.setLatch {} .challengeReady).standing
      (.ended ⟨.call (.keyRequest timeout), entry, asked, none⟩ :: history) :=
    htold.cons_slot rfl rfl
  cases isReady with
  | false =>
    refine hnext _ _ _ none htaken ?_
    rw [← hslot, Session.slot, hsignalled]
    rfl
  | true =>
    rw [Session.slot, if_pos hsignalled] at hslot
    refine achieves_bind.mpr (achieves_modifyGet.mpr (achieves_ite.mpr ⟨?_, ?_⟩))
    · intro (hempty : session.challenge.payload.isEmpty = true)
      refine hnext _ _ _ none htaken ?_
      rw [← hslot, Option.bind_some, PendingChallenge.request?, if_pos hempty]
    · intro (hpayload : ¬session.challenge.payload.isEmpty = true)
      refine achieves_bind.mpr (achieves_modify.mpr (hnext _ _ _ (some _) ⟨?_, ?_, nofun⟩ ?_))
      · rw [History.state_cons]
        rfl
      · intro _
        rw [History.slot_cons]
        rfl
      · rw [← hslot, Option.bind_some, PendingChallenge.request?, if_neg hpayload]
        rfl

theorem tells_keyRequest {timeout : Duration} (entry : Session)
    {post : Session → List Asked → History → Option KeyRequest → Prop} (htold : Told session.standing history)
    (hpinned : 0 < pinned) (hhandle : 0 < session.handles)
    (hnext : ∀ (session' : Session) asked' (history' : History) request,
      Told session'.standing (.ended ⟨.call (.keyRequest timeout), entry, asked', request⟩ :: history') →
      request = history'.slot.bind PendingChallenge.request? → post session' asked' history' request) :
    chronicle.Achieves pinned (keyRequest timeout session) asked (.began (.call (.keyRequest timeout)) :: history)
      post := by
  rw [keyRequest_eq]
  have herror : Told { session with state := .error : Session }.standing
      (.began (.call (.keyRequest timeout)) :: history) :=
    htold.cons_state rfl rfl nofun
  refine achieves_bind.mpr (achieves_modify.mpr (achieves_bind.mpr (achieves_bind.mpr (achieves_modifyGet.mpr
    (achieves_ite.mpr ⟨?_, ?_⟩)))))
  · intro (hsignalled : session.challengeReady.isSignalled = true)
    exact tells_takeSignal_handOut hsignalled herror hhandle hnext
  · -- trying to take the signal leaves the slot as empty as it was
    intro (hquiet : ¬session.challengeReady.isSignalled = true)
    have hwaiting : Told { session with state := .error, challengeReady := {} : Session }.standing
        (.began (.call (.keyRequest timeout)) :: history) := by
      refine ⟨herror.state_eq, fun _ => ?_, nofun⟩
      rw [← herror.slot_eq hhandle]
      show none = if session.challengeReady.isSignalled = true then some session.challenge else none
      rw [if_neg hquiet]
    refine achieves_bind.mpr (achieves_ask.mpr ⟨hwaiting.cons rfl rfl, ?_⟩)
    intro session' history' reply hback
    refine achieves_modifyGet.mpr (tells_takeSignal_handOut rfl (Told.cons hback.holds rfl rfl) ?_ hnext)
    exact hback.anchored.handles_pos hpinned hhandle

/-! ### Processing -/

/-- A license that was processed successfully leaves the session ready, so a native session has to be open then; that it is, only custody knows. -/
theorem tells_settle {license : Option LicenseData} {timeout : Duration} {entry : Session}
    {post : Session → List Asked → History → Except Fault Unit → Prop} (htold : Told session.standing history)
    (hnext : ∀ (session' : Session) asked' (history' : History) result,
      ((result = .ok () → session'.opened ≠ none) →
        Told session'.standing (.ended ⟨.call (.process license timeout), entry, asked', result⟩ :: history')) →
      post session' asked' history' result) :
    chronicle.Achieves pinned (settle timeout session) asked history post := by
  refine achieves_bind.mpr (steady_await (by decide) timeout pinned _ _ _ _ htold ?_)
  intro awaited _ _ _ hawaited _
  refine achieves_bind.mpr (steady_resolveKeyStatus pinned _ _ _ _ hawaited ?_)
  intro resolved asked' history' status hresolved _
  refine achieves_bind.mpr (achieves_modify.mpr (achieves_ite.mpr ⟨?_, ?_⟩))
  · -- nothing runs while the error of the hardware is reported, so the state is still `error` at the end
    intro hstatus
    subst hstatus
    have herror : Told { resolved with state := .error : Session }.standing
        (.asked (.hardwareError resolved.keySystem) :: history') :=
      hresolved.cons_state rfl rfl nofun
    refine achieves_bind.mpr (achieves_get.mpr (achieves_bind.mpr (achieves_ask.mpr ⟨herror, ?_⟩)))
    intro session' history'' reply hback
    obtain ⟨rfl, rfl⟩ := hback.quiet rfl
    refine hnext _ _ _ _ fun _ => ?_
    exact (herror.cons rfl rfl).cons_state rfl rfl nofun
  · intro _
    refine hnext _ _ _ _ fun hopened => hresolved.cons_state rfl rfl ?_
    intro hready
    apply hopened
    cases hresult : outcome status with
    | ok => rfl
    | error fault =>
      rw [hresult] at hready
      cases hready

theorem tells_process {license : Option LicenseData} {timeout : Duration} (entry : Session)
    {post : Session → List Asked → History → Except Fault Unit → Prop} (htold : Told session.standing history)
    (hnext : ∀ (session' : Session) asked' (history' : History) result,
      ((result = .ok () → session'.opened ≠ none) →
        Told session'.standing (.ended ⟨.call (.process license timeout), entry, asked', result⟩ :: history')) →
      post session' asked' history' result) :
    chronicle.Achieves pinned (process license timeout session) asked history post := by
  cases license with
  | none =>
    rw [process_none]
    exact tells_settle htold hnext
  | some license =>
    rw [process_some]
    refine achieves_bind.mpr (steady_feedLicense license pinned _ _ _ _ htold ?_)
    intro fed _ _ _ hfed _
    exact tells_settle hfed hnext

/-- The open native session has said that the key is usable. -/
theorem Settled.opened_of_ok {asked : List Asked} {result : Except Fault Unit} {session : Session} {history : History}
    (hsettled : Settled asked result session history) (hresult : result = .ok ()) : session.opened ≠ none := by
  obtain ⟨status, hresolved, hdecides, -⟩ := hsettled.decided
  subst hresult
  cases hdecides
  obtain ⟨number, -, hopened, -⟩ := hresolved
  rw [hopened]
  exact nofun

/-! ### Handles and events -/

theorem tells_release {post : Session → List Asked → History → Unit → Prop} (htold : Told session.standing history)
    (hhandle : 0 < session.handles)
    (hnext : ∀ (session' : Session) asked' (history' : History), Told session'.standing history' →
      post session' asked' history' ()) :
    chronicle.Achieves pinned (release session) asked history post := by
  have hreleased : Told { session with handles := session.handles - 1 : Session }.standing history :=
    htold.withHandles fun _ => hhandle
  refine achieves_bind.mpr (achieves_get.mpr (achieves_bind.mpr (achieves_modify.mpr (achieves_ite.mpr ⟨?_, ?_⟩))))
  · intro hgone
    exact tells_closeOpened hreleased (.inr hgone) fun _ _ _ htold' _ => hnext _ _ _ htold'
  · intro _
    exact hnext _ _ _ hreleased

theorem tells_onChallenge {url : String} {payload : Bytes} {post : Session → List Asked → History → Unit → Prop}
    (htold : Told session.standing history)
    (hnext : ∀ (session' : Session) asked' (history' : History), Told session'.standing history' →
      Anchored pinned session.standing session'.standing → post session' asked' history' ()) :
    chronicle.Achieves pinned (onChallenge url payload session) asked
      (.began (.event (.challenge url payload)) :: history) post := by
  refine achieves_bind.mpr (achieves_get.mpr (achieves_ite.mpr ⟨?_, ?_⟩))
  · intro hkind
    have hasked : Steady (if session.setting.hasSideChannel = true then
        ask (.individualize (Challenge.body payload)) else pure () : Operation Unit) :=
      steady_ite (steady_ask rfl rfl fun _ => rfl) (steady_pure ())
    refine hasked pinned _ _ _ _ (htold.cons rfl ?_) fun _ _ _ _ => hnext _ _ _
    rw [Entry.slot?, if_pos hkind]
  · intro hkind
    have hdelivered : Told { session with challenge := { payload, url }, challengeReady := ⟨true⟩ : Session }.standing
        (.began (.event (.challenge url payload)) :: history) :=
      htold.cons_slot rfl (if_neg hkind)
    have hasked : Steady (if (Challenge.kind payload = .licenseRenewal && session.setting.hasSideChannel) = true then
        ask .renew else pure () : Operation Unit) :=
      steady_ite (steady_ask rfl rfl fun _ => rfl) (steady_pure ())
    refine achieves_bind.mpr (achieves_modify.mpr (achieves_bind.mpr (achieves_modify.mpr ?_)))
    refine hasked pinned _ _ _ _ hdelivered ?_
    intro session' asked' history' _ htold' hanchored
    exact hnext _ _ _ htold' ⟨hanchored.isLocked_eq, hanchored.le_handles, hanchored.opened_eq⟩

theorem steady_onKeyUpdate (keyId : Bytes) : Steady (onKeyUpdate keyId) := by
  refine steady_get.bind fun session => ?_
  cases if session.isLocked then none else session.opened with
  | none =>
    apply steady_modify
    intro _
    rfl
  | some number =>
    refine (steady_ask rfl rfl fun _ => rfl).bind fun status => steady_modify ?_
    intro _
    rfl

theorem tells_handle {event : Event} {post : Session → List Asked → History → Unit → Prop}
    (htold : Told session.standing history)
    (hnext : ∀ (session' : Session) asked' (history' : History), Told session'.standing history' →
      Anchored pinned session.standing session'.standing → post session' asked' history' ()) :
    chronicle.Achieves pinned (handle event session) asked (.began (.event event) :: history) post := by
  cases event with
  | challenge url payload => exact tells_onChallenge htold hnext
  | keyUpdate keyId => exact steady_onKeyUpdate keyId pinned _ _ _ _ (htold.cons rfl rfl) fun _ _ _ _ => hnext _ _ _
  | error message => exact steady_pure () pinned _ _ _ _ (htold.cons rfl rfl) fun _ _ _ _ => hnext _ _ _
  | keysUpdated =>
    exact steady_signal (by decide) pinned _ _ _ _ (htold.cons rfl rfl) fun _ _ _ _ => hnext _ _ _

theorem tells_deliver {event : Event} {post : Session → List Asked → History → Unit → Prop} (hpinned : 0 < pinned)
    (htold : Told session.standing history)
    (hnext : ∀ (session' : Session) asked' (history' : History),
      Told session'.standing (.ended ⟨.event event, session, asked', ()⟩ :: history') →
      post session' asked' history' ()) :
    chronicle.Achieves pinned (deliver event session) asked (.began (.event event) :: history) post := by
  refine achieves_bind.mpr (achieves_get.mpr (achieves_ite.mpr ⟨?_, ?_⟩))
  · intro hgone
    refine hnext _ _ _ (.ofGone ?_ hgone)
    rw [History.state_cons, History.state_cons]
    exact htold.state_eq
  · intro hsome
    have hhandle : 0 < session.handles := Nat.pos_of_ne_zero hsome
    have hretained : Told { session with handles := session.handles + 1 : Session }.standing history :=
      htold.withHandles fun _ => hhandle
    refine achieves_bind.mpr (achieves_modify.mpr (achieves_bind.mpr (tells_handle hretained ?_)))
    intro handled _ _ hhandled hanchored
    refine tells_release hhandled (hanchored.handles_pos hpinned (Nat.succ_pos session.handles)) ?_
    intro session' _ _ htold'
    exact hnext _ _ _ (htold'.cons rfl rfl)

/-! ### Activities -/

/-- What an activity owes to the chronicle, once it owes nothing to custody any more. -/
theorem owes_of_told {activity : Activity} {pinned : Nat} {entry session : Session} {asked : List Asked}
    {history : History} {result : activity.Result}
    (htold : Told session.standing (.ended ⟨activity, entry, asked, result⟩ :: history))
    (hreport : chronicle.Report ⟨activity, entry, asked, result⟩ session history)
    (howed : custody.Owes activity entry pinned session asked history result) :
    chronicle.Owes activity entry pinned session asked history result :=
  ⟨htold, howed.2.1.anchored, hreport⟩

theorem tells_steady {activity : Activity} {pinned : Nat} (hsteady : Steady activity.program)
    (htold : Told session.standing history) (hbegan : (Entry.began activity).state? = none)
    (hslot : (Entry.began activity).slot? = none)
    (hended : ∀ asked result, (Entry.ended ⟨activity, session, asked, result⟩).state? = none ∧
      (Entry.ended ⟨activity, session, asked, result⟩).slot? = none)
    (hreport : ∀ session' asked result history',
      chronicle.Report ⟨activity, session, asked, result⟩ session' history') :
    chronicle.Achieves (activity.pins pinned) (activity.program session) [] (.began activity :: history)
      fun session' asked' history' result =>
        custody.Owes activity session pinned session' asked' history' result →
          chronicle.Owes activity session pinned session' asked' history' result := by
  refine hsteady _ _ _ _ _ (htold.cons hbegan hslot) ?_
  intro session' asked' history' result htold' _
  exact owes_of_told (htold'.cons (hended _ _).1 (hended _ _).2) (hreport _ _ _ _)

theorem chronicle_met : (custody.and chronicle).Met := by
  refine custody_met.and ?_
  intro activity pinned session history (htold : Told session.standing history) hhandle
  cases activity with
  | event event =>
    refine tells_deliver (Nat.succ_pos pinned) htold ?_
    intro session' asked' history' htold'
    exact owes_of_told htold' trivial
  | call made =>
    cases made with
    | generate initData customData =>
      refine tells_generate session (htold.cons rfl rfl) ?_
      intro session' asked' history' htold' hreport
      exact owes_of_told htold' hreport
    | keyRequest timeout =>
      refine tells_keyRequest session htold (Nat.le_max_left 1 pinned) (of_decide_eq_true hhandle) ?_
      intro session' asked' history' request htold' hrequest
      exact owes_of_told htold' hrequest
    | process license timeout =>
      refine tells_process session (htold.cons rfl rfl) ?_
      intro session' asked' history' result htold' howed
      exact owes_of_told (htold' howed.2.2.opened_of_ok) trivial howed
    | clear =>
      refine tells_clear session (htold.cons rfl rfl) ?_
      intro session' asked' history' htold'
      exact owes_of_told htold' trivial
    | release =>
      have hpinned : pinned < session.handles := of_decide_eq_true hhandle
      refine tells_release (htold.cons rfl rfl) (Nat.zero_lt_of_lt hpinned) ?_
      intro session' asked' history' htold'
      exact owes_of_told (htold'.cons rfl rfl) trivial
    | retain =>
      have hretained : Told { session with handles := session.handles + 1 : Session }.standing history :=
        htold.withHandles fun _ => of_decide_eq_true hhandle
      exact owes_of_told ((hretained.cons rfl rfl).cons rfl rfl) trivial
    | decrypt encryption payload =>
      exact tells_steady (steady_decrypt encryption payload) htold rfl rfl (fun _ _ => ⟨rfl, rfl⟩)
        fun _ _ _ _ => trivial
    | waitForState state timeout =>
      exact tells_steady (steady_waitForState state timeout) htold rfl rfl (fun _ _ => ⟨rfl, rfl⟩)
        fun _ _ _ _ => trivial
    | setMemory memory =>
      exact tells_steady (steady_setMemory memory) htold rfl rfl (fun _ _ => ⟨rfl, rfl⟩) fun _ _ _ _ => trivial
    | setOutputProtection enabled =>
      exact tells_steady (steady_modify fun _ => rfl) htold rfl rfl (fun _ _ => ⟨rfl, rfl⟩) fun _ _ _ _ => trivial
    | setSecurityManager handle =>
      exact tells_steady (steady_modify fun _ => rfl) htold rfl rfl (fun _ _ => ⟨rfl, rfl⟩) fun _ _ _ _ => trivial
    | changeOutputLink link =>
      exact tells_steady (steady_modify fun _ => rfl) htold rfl rfl (fun _ _ => ⟨rfl, rfl⟩) fun _ _ _ _ => trivial

/-! ### Runs -/

theorem Reachable.fits_chronicle {setting : Setting} {moment : Moment} (hreach : Reachable setting moment) :
    (Native.custody.and chronicle).Fits moment :=
  chronicle_met.fits ⟨Custody.initial setting, Told.initial setting⟩ hreach

theorem Reachable.told {setting : Setting} {moment : Moment} (hreach : Reachable setting moment) :
    Told moment.session.standing moment.history :=
  hreach.fits_chronicle.holds.2

theorem Reachable.state_eq {setting : Setting} {moment : Moment} (hreach : Reachable setting moment) :
    moment.session.state = moment.history.state :=
  hreach.told.state_eq

theorem Reachable.reports {setting : Setting} {moment : Moment} {record : Record} {earlier : History}
    (hreach : Reachable setting moment) (hended : moment.history = .ended record :: earlier) :
    chronicle.Report record moment.session earlier :=
  (hreach.fits_chronicle.report record earlier hended).2

end ContentProtection.Native
