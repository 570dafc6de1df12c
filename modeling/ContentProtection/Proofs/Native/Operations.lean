import ContentProtection.Proofs.Native.Exchange

/-!
# Operations under custody

One lemma for each operation, saying what may be assumed of the rest once it is over: `hnext` is about every session, every list of own requests and every history that it can leave. The lemmas about whole activities are put together from these, and none looks into an operation that it calls.
-/

namespace ContentProtection.Native

open ContentProtection.Session (Fault Reply Request Signal)
open Outline

variable {pinned : Nat} {session : Session} {asked : List Asked} {history : History}

/-! ### Requests, latches and the lock -/

/-- A request during which others may run. -/
theorem achieves_loud {request : Request} {post : Session → List Asked → History → Reply request → Prop}
    (hloud : isQuiet request = false)
    (hcustody : Custody pinned session.holding (History.marks (.asked request :: history)))
    (hnext : ∀ (session' : Session) (history' : History) reply, Custody pinned session'.holding history'.marks →
      Undisturbed pinned session.holding session'.holding →
      post session' (⟨session, request⟩ :: asked) (.replied request reply :: history') reply) :
    custody.Achieves pinned ((Session.ask request : Operation _) session) asked history post := by
  refine achieves_ask.mpr ⟨hcustody, ?_⟩
  intro session' history' reply hback
  exact hnext session' history' reply hback.holds (hback.rely hloud)

theorem achieves_awaitUnlocked {post : Session → List Asked → History → Unit → Prop}
    (hcustody : Custody pinned session.holding history.marks)
    (hnext : session.isLocked = false → post session asked history ()) :
    custody.Achieves pinned (awaitUnlocked session) asked history post := by
  refine achieves_ite.mpr ⟨?_, ?_⟩
  · intro _
    refine achieves_ask.mpr ⟨hcustody, ?_⟩
    intro _ _ _ hback
    exact absurd rfl hback.1
  · intro hunlocked
    exact hnext (by simpa using hunlocked)

theorem achieves_openSession {post : Session → List Asked → History → Option Nat → Prop}
    (hcustody : Custody pinned session.holding history.marks)
    (hnext : session.isLocked = false → post session asked history session.opened) :
    custody.Achieves pinned (openSession session) asked history post := by
  apply achieves_bind.mpr
  exact achieves_awaitUnlocked hcustody hnext

/-- No status is left over when an operation takes the lock. -/
theorem achieves_lock {post : Session → List Asked → History → Unit → Prop}
    (hcustody : Custody pinned session.holding history.marks) (hpinned : 0 < pinned) (hhandle : 0 < session.handles)
    (hnext : ∀ locked : Session, Custody pinned locked.holding history.marks → locked.isLocked = true →
      (locked.opened = none → locked.key.status = none) → session.isLocked = false →
      Stays pinned { session with isLocked := true : Session }.holding locked.holding → post locked asked history ()) :
    custody.Achieves pinned (lock session) asked history post := by
  apply achieves_bind.mpr
  apply achieves_awaitUnlocked hcustody
  intro hunlocked
  have hkey : KeyKept session.opened session.isLocked session.key history.marks := hcustody.key hhandle
  rw [hunlocked] at hkey
  refine achieves_modify.mpr (hnext _ ?_ rfl ?_ hunlocked (.refl _ _))
  · exact ⟨⟨hcustody.ledger, hcustody.gone, fun _ => ⟨hpinned, hhandle⟩⟩, fun _ => hkey.locked⟩
  · intro hnone
    rw [show session.opened = none from hnone] at hkey
    exact hkey.status_eq_none

theorem achieves_takeSignal {which : Signal} {post : Session → List Asked → History → Bool → Prop}
    (hnext : ∀ taken latch, post (session.setLatch latch which) asked history taken) :
    custody.Achieves pinned (takeSignal which session) asked history post :=
  hnext _ _

/-- Taking a signal, waiting for it at most once. -/
theorem achieves_await {which : Signal} {timeout : Duration} {post : Session → List Asked → History → Bool → Prop}
    (hcustody : Custody pinned session.holding history.marks)
    (hnext : ∀ (session' : Session) asked' (history' : History) taken, Custody pinned session'.holding history'.marks →
      Undisturbed pinned session.holding session'.holding → updates asked' = updates asked →
      hardwareErrors asked' = hardwareErrors asked → post session' asked' history' taken) :
    custody.Achieves pinned (await which timeout session) asked history post := by
  refine achieves_bind.mpr (achieves_takeSignal ?_)
  intro taken latch
  have hlatch := Session.holding_setLatch session latch which
  refine achieves_ite.mpr ⟨?_, ?_⟩
  · intro _
    exact hnext _ _ _ _ (hlatch ▸ hcustody) (hlatch ▸ .refl pinned session.holding) rfl rfl
  · intro _
    refine achieves_bind.mpr (achieves_loud rfl (hlatch ▸ hcustody) ?_)
    intro session' history' _ hcustody' hundisturbed
    refine achieves_takeSignal ?_
    intro taken' latch'
    have hlatch' := Session.holding_setLatch session' latch' which
    exact hnext _ _ _ _ (hlatch' ▸ hcustody') (hlatch' ▸ hlatch ▸ hundisturbed) rfl rfl

/-- Closing under the lock or after the last handle is gone. -/
theorem achieves_closeOpened {post : Session → List Asked → History → Unit → Prop}
    (hledger : Ledger session.opened session.constructed history.marks)
    (hheld : session.isLocked = true → 0 < pinned ∧ 0 < session.handles)
    (hkey : 0 < session.handles →
      session.isLocked = true ∧ KeyKept session.opened session.isLocked session.key history.marks)
    (hnext : ∀ (session' : Session) asked' (history' : History), Guarded pinned session'.holding history'.marks →
      session'.opened = none → Stays pinned session.holding session'.holding → post session' asked' history' ()) :
    custody.Achieves pinned (closeOpened session) asked history post := by
  refine achieves_bind.mpr (achieves_get.mpr ?_)
  cases hopened : session.opened with
  | none => exact hnext session asked history ⟨hledger, fun _ => hopened, hheld⟩ hopened (.refl pinned session.holding)
  | some number =>
    rw [hopened] at hledger
    refine achieves_bind.mpr (achieves_modify.mpr (achieves_loud rfl ?_ ?_))
    · refine ⟨⟨hledger.closed, fun _ => rfl, hheld⟩, ?_⟩
      intro hhandle
      obtain ⟨hlocked, hkept⟩ := hkey hhandle
      rw [hlocked] at hkept
      exact hlocked ▸ hkept.closed number
    · intro session' history' _ hcustody' hundisturbed
      obtain ⟨⟨hlock, hhandles, hgone⟩, hopen, -⟩ := hundisturbed
      refine hnext session' _ _ hcustody'.toGuarded ?_ ⟨hlock, hhandles, hgone⟩
      by_cases hhandle : 0 < session.handles
      · exact hopen (hkey hhandle).1
      · exact hcustody'.gone (hgone (Nat.eq_zero_of_not_pos hhandle))

/-! ### Making a native session -/

theorem achieves_ensureSystem {post : Session → List Asked → History → Bool → Prop}
    (hcustody : Custody pinned session.holding history.marks)
    (hnext : ∀ (session' : Session) asked' (history' : History) created,
      Custody pinned session'.holding history'.marks → Undisturbed pinned session.holding session'.holding →
      post session' asked' history' created) :
    custody.Achieves pinned (ensureSystem session) asked history post := by
  refine achieves_bind.mpr (achieves_get.mpr (achieves_ite.mpr ⟨?_, ?_⟩))
  · intro _
    exact hnext session asked history true hcustody (.refl pinned session.holding)
  · intro _
    refine achieves_bind.mpr (achieves_get.mpr (achieves_bind.mpr (achieves_loud rfl hcustody ?_)))
    intro session' history' created hcustody' hundisturbed
    exact hnext _ _ _ created hcustody' hundisturbed

/-- A construction under the lock starts without a key, and no status comes while it lasts. -/
theorem achieves_construct {initData : Bytes} {customData : Option Bytes}
    {post : Session → List Asked → History → Unit → Prop}
    (hguarded : Guarded pinned session.holding history.marks) (hlocked : session.isLocked = true)
    (hopened : session.opened = none) (hkey : session.key = {})
    (hnext : ∀ (session' : Session) asked' (history' : History), Custody pinned session'.holding history'.marks →
      session'.key.status = none → Stays pinned session.holding session'.holding → post session' asked' history' ()) :
    custody.Achieves pinned (construct initData customData session) asked history post := by
  have hkeyId : session.key.keyId = [] := by rw [hkey]
  have hstatus : session.key.status = none := by rw [hkey]
  refine achieves_bind.mpr (achieves_loud rfl ?_ ?_)
  · exact ⟨⟨hguarded.ledger.keyed none, hguarded.gone, hguarded.held⟩, fun _ => .unanswered hkeyId hstatus⟩
  · intro session' history' reply hcustody' hundisturbed
    have hlocked' : session'.isLocked = true := hundisturbed.isLocked_eq.trans hlocked
    have hopened' : session'.opened = none := (hundisturbed.opened_eq hlocked).trans hopened
    have hstatus' : session'.key.status = none := hundisturbed.status_eq_none hlocked hstatus
    obtain ⟨⟨hledger, hgone, hheld⟩, hkept⟩ := hcustody'
    obtain ⟨hlock, hhandles, hhandles'⟩ := hundisturbed.toStays
    cases reply with
    | error _ => exact hnext _ _ _ ⟨⟨hledger, hgone, hheld⟩, hkept⟩ hstatus' ⟨hlock, hhandles, hhandles'⟩
    | ok id =>
      have hhandle : 0 < session'.handles := (hheld hlocked').2
      have hledger' : Ledger none session'.constructed history'.marks := hopened' ▸ hledger
      have hkept' : KeyKept session'.opened session'.isLocked session'.key history'.marks := hkept hhandle
      refine achieves_bind.mpr (achieves_modifyGet.mpr (achieves_ite.mpr ⟨?_, ?_⟩))
      -- Without an id the native session is refused, but it was constructed, so it has to be closed.
      · intro _
        refine achieves_bind.mpr (achieves_loud rfl ⟨⟨?_, hgone, hheld⟩, ?_⟩ ?_)
        · exact hopened' ▸ hledger'.construction.closed
        · exact fun _ => .unanswered hkept'.keyId_eq hstatus'
        · intro session'' history'' _ hcustody'' hundisturbed''
          obtain ⟨hlock'', hhandles'', hgone''⟩ := hundisturbed''.toStays
          refine hnext _ _ _ hcustody'' (hundisturbed''.status_eq_none hlocked' hstatus') ?_
          exact Stays.trans ⟨hlock, hhandles, hhandles'⟩ ⟨hlock'', hhandles'', hgone''⟩
      · intro _
        refine achieves_modify.mpr (hnext _ _ _ ⟨⟨hledger'.construction, ?_, hheld⟩, ?_⟩ hstatus' ?_)
        · intro hnone
          exact absurd hnone (Nat.ne_of_gt hhandle)
        · intro _
          exact .unanswered hkept'.keyId_eq hstatus'
        · exact ⟨hlock, hhandles, hhandles'⟩

/-! ### Operations under the lock -/

/-- Giving back the lock that an operation took before. -/
theorem achieves_unlock {before : Session} {marks : List Mark} {post : Session → List Asked → History → Unit → Prop}
    (hcustody : Custody pinned session.holding marks) (hleft : session.opened = none → session.key.status = none)
    (hunlocked : before.isLocked = false)
    (hstays : Stays pinned { before with isLocked := true : Session }.holding session.holding)
    (hnext : ∀ session' : Session, Custody pinned session'.holding marks →
      Undisturbed pinned before.holding session'.holding → post session' asked history ()) :
    custody.Achieves pinned (unlock session) asked history post := by
  refine achieves_modify.mpr (hnext _ ⟨⟨hcustody.ledger, hcustody.gone, ?_⟩, ?_⟩ ?_)
  · intro hlocked
    cases hlocked
  · intro hhandle
    exact (hcustody.key hhandle).unlocked hleft
  · exact Stays.undisturbed ⟨hunlocked.symm, hstays.le_handles, hstays.handles_eq_zero⟩ hunlocked

/-- An operation after which everything is undisturbed and custody is kept, once what it has done is marked, wherever there is a handle for it. -/
def Keeps {α : Type} (marked : List Mark) (program : Operation α) : Prop :=
  ∀ (pinned : Nat) (session : Session) (asked : List Asked) (history : History)
    (post : Session → List Asked → History → α → Prop), 0 < pinned → 0 < session.handles →
      Custody pinned session.holding history.marks →
      (∀ (session' : Session) asked' (history' : History) value,
        Custody pinned session'.holding (marked ++ history'.marks) →
        Undisturbed pinned session.holding session'.holding → post session' asked' history' value) →
      custody.Achieves pinned (program session) asked history post

theorem keeps_generate (initData : Bytes) (customData : Option Bytes) : Keeps [] (generate initData customData) := by
  intro pinned session asked history post hpinned hhandle hcustody hnext
  refine achieves_bind.mpr (achieves_lock hcustody hpinned hhandle ?_)
  intro locked hlocked hlock hleft hunlocked hstays
  refine achieves_bind.mpr (achieves_ensureSystem hlocked ?_)
  intro ensured _ _ created hensured hundisturbed
  have hlock' : ensured.isLocked = true := hundisturbed.isLocked_eq.trans hlock
  refine achieves_ite.mpr ⟨?_, ?_⟩
  · intro _
    refine achieves_bind.mpr (achieves_closeOpened hensured.ledger hensured.held ?_ ?_)
    · intro hhandle'
      exact ⟨hlock', hensured.key hhandle'⟩
    intro closed _ _ ⟨hledger, hgone, hheld⟩ hopened hstays'
    refine achieves_bind.mpr (achieves_modify.mpr (achieves_bind.mpr ?_))
    refine achieves_construct ⟨hledger, hgone, hheld⟩ (hstays'.isLocked_eq.trans hlock') hopened rfl ?_
    intro made _ _ hmade hstatus ⟨hmadeLock, hhandles, hhandles'⟩
    refine achieves_unlock hmade (fun _ => hstatus) hunlocked ?_ fun _ => hnext _ _ _ ()
    exact hstays.trans (hundisturbed.toStays.trans (hstays'.trans ⟨hmadeLock, hhandles, hhandles'⟩))
  · intro _
    refine achieves_bind.mpr (achieves_modify.mpr ?_)
    refine achieves_unlock hensured ?_ hunlocked (hstays.trans hundisturbed.toStays) fun _ => hnext _ _ _ ()
    intro hopened
    exact hundisturbed.status_eq_none hlock (hleft ((hundisturbed.opened_eq hlock).symm.trans hopened))

theorem keeps_clear : Keeps [.keyed none] clear := by
  intro pinned session asked history post hpinned hhandle hcustody hnext
  refine achieves_bind.mpr (achieves_lock hcustody hpinned hhandle ?_)
  intro locked hlocked hlock _ hunlocked hstays
  refine achieves_bind.mpr (achieves_closeOpened hlocked.ledger hlocked.held ?_ ?_)
  · intro hhandle'
    exact ⟨hlock, hlocked.key hhandle'⟩
  intro closed _ closing ⟨hledger, hgone, hheld⟩ _ ⟨hclosedLock, hhandles, hhandles'⟩
  have hcleared : Custody pinned { closed with key := {}, state := .init : Session }.holding
      (.keyed none :: closing.marks) :=
    ⟨⟨hledger.keyed none, hgone, hheld⟩, fun _ => .unanswered rfl rfl⟩
  refine achieves_bind.mpr (achieves_modify.mpr ?_)
  refine achieves_unlock hcleared (fun _ => rfl) hunlocked ?_ fun _ => hnext _ _ _ ()
  exact hstays.trans ⟨hclosedLock, hhandles, hhandles'⟩

/-! ### Decrypting -/

/-- What is asked of the open native session or of a memory system, under the lock. -/
theorem achieves_decryptThrough {memory : MemoryId} {number : Nat} {encryption : Sample.Encryption} {payload : Bytes}
    {post : Session → List Asked → History → Except Fault Unit × Bytes → Prop}
    (hcustody : Custody pinned session.holding history.marks) (hlocked : session.isLocked = true)
    (hopened : session.opened = some number)
    (hnext : ∀ (session' : Session) asked' (history' : History) result, Custody pinned session'.holding history'.marks →
      Undisturbed pinned session.holding session'.holding → post session' asked' history' result) :
    custody.Achieves pinned (decryptThrough memory number encryption payload session) asked history post := by
  refine achieves_bind.mpr (achieves_loud rfl hcustody ?_)
  intro session₁ history₁ reply hcustody₁ hundisturbed₁
  cases reply with
  | none => exact hnext _ _ _ _ hcustody₁ hundisturbed₁
  | some encoded =>
    have hopened₁ : session₁.opened = some number := (hundisturbed₁.opened_eq hlocked).trans hopened
    refine achieves_bind.mpr (achieves_loud rfl (hcustody₁.used hopened₁) ?_)
    intro session₂ history₂ reply hcustody₂ hundisturbed₂
    have hundisturbed := hundisturbed₁.trans hundisturbed₂
    obtain ⟨status | _, decrypted⟩ := reply
    · refine achieves_bind.mpr (achieves_loud rfl hcustody₂ ?_)
      intro session₃ history₃ _ hcustody₃ hundisturbed₃
      exact hnext _ _ _ _ hcustody₃ (hundisturbed.trans hundisturbed₃)
    · refine achieves_bind.mpr (achieves_loud rfl hcustody₂ ?_)
      intro session₃ history₃ reply hcustody₃ hundisturbed₃
      obtain ⟨decoded, buffer⟩ := reply
      cases decoded
      · exact hnext _ _ _ _ hcustody₃ (hundisturbed.trans hundisturbed₃)
      · exact hnext _ _ _ _ hcustody₃ (hundisturbed.trans hundisturbed₃)

theorem achieves_decryptOpened {number : Nat} {encryption : Sample.Encryption} {payload : Bytes}
    {post : Session → List Asked → History → Except Fault Unit × Bytes → Prop}
    (hcustody : Custody pinned session.holding history.marks) (hlocked : session.isLocked = true)
    (hopened : session.opened = some number)
    (hnext : ∀ (session' : Session) asked' (history' : History) result, Custody pinned session'.holding history'.marks →
      Undisturbed pinned session.holding session'.holding → post session' asked' history' result) :
    custody.Achieves pinned (decryptOpened number encryption payload session) asked history post := by
  refine achieves_bind.mpr (achieves_get.mpr ?_)
  cases session.memory with
  | some memory => exact achieves_decryptThrough hcustody hlocked hopened hnext
  | none =>
    refine achieves_bind.mpr (achieves_loud rfl (hcustody.used hopened) ?_)
    intro session' history' reply hcustody' hundisturbed
    obtain ⟨status | _, buffer⟩ := reply
    · exact hnext _ _ _ _ hcustody' hundisturbed
    · exact hnext _ _ _ _ hcustody' hundisturbed

theorem keeps_decrypt (encryption : Sample.Encryption) (payload : Bytes) : Keeps [] (decrypt encryption payload) := by
  intro pinned session asked history post hpinned hhandle hcustody hnext
  refine achieves_bind.mpr (achieves_get.mpr (achieves_ite.mpr ⟨?_, ?_⟩))
  · intro _
    exact hnext _ _ _ _ hcustody (.refl pinned session.holding)
  · intro _
    refine achieves_bind.mpr (achieves_lock hcustody hpinned hhandle ?_)
    intro locked hlocked hlock hleft hunlocked hstays
    refine achieves_bind.mpr (achieves_get.mpr ?_)
    cases hopened : locked.opened with
    | none =>
      refine achieves_bind.mpr (achieves_pure.mpr (achieves_bind.mpr ?_))
      exact achieves_unlock hlocked hleft hunlocked hstays fun _ => hnext _ _ _ _
    | some number =>
      refine achieves_bind.mpr (achieves_decryptOpened hlocked hlock hopened ?_)
      intro decrypted _ _ result hdecrypted hundisturbed
      refine achieves_bind.mpr ?_
      refine achieves_unlock hdecrypted ?_ hunlocked (hstays.trans hundisturbed.toStays) fun _ => hnext _ _ _ _
      intro hnone
      cases ((hundisturbed.opened_eq hlock).trans hopened).symm.trans hnone

/-! ### The key exchange -/

theorem achieves_feedLicense {license : LicenseData} {post : Session → List Asked → History → Unit → Prop}
    (hcustody : Custody pinned session.holding history.marks)
    (hnext : ∀ (session' : Session) asked' (history' : History), Custody pinned session'.holding history'.marks →
      Undisturbed pinned session.holding session'.holding →
      updates asked' = (session.opened.map (·, license.bytes)).toList ++ updates asked →
      hardwareErrors asked' = hardwareErrors asked → post session' asked' history' ()) :
    custody.Achieves pinned (feedLicense license session) asked history post := by
  refine achieves_bind.mpr (achieves_openSession hcustody ?_)
  intro _
  cases hopened : session.opened with
  | none =>
    refine hnext _ _ _ hcustody (.refl pinned session.holding) ?_ rfl
    rw [hopened]
    rfl
  | some number =>
    refine achieves_bind.mpr (achieves_loud rfl (hcustody.used hopened) ?_)
    intro session' history' _ hcustody' hundisturbed
    refine hnext _ _ _ hcustody' hundisturbed ?_ rfl
    rw [hopened]
    rfl

theorem achieves_resolveKeyStatus {post : Session → List Asked → History → Option KeyStatus → Prop}
    (hcustody : Custody pinned session.holding history.marks) (hhandle : 0 < session.handles)
    (hnext : ∀ (session' : Session) asked' (history' : History) status, Custody pinned session'.holding history'.marks →
      Undisturbed pinned session.holding session'.holding → Resolved session'.opened history'.marks status →
      updates asked' = updates asked → hardwareErrors asked' = hardwareErrors asked →
      post session' asked' history' status) :
    custody.Achieves pinned (resolveKeyStatus session) asked history post := by
  refine achieves_bind.mpr (achieves_openSession hcustody ?_)
  intro hunlocked
  have hkey : KeyKept session.opened session.isLocked session.key history.marks := hcustody.key hhandle
  have hundisturbed := Undisturbed.refl pinned session.holding
  refine achieves_bind.mpr (achieves_get.mpr ?_)
  cases hstatus : session.key.status with
  | some status =>
    refine hnext _ _ _ (some status) hcustody hundisturbed ?_ rfl rfl
    refine (hkey.answered status hstatus).resolve_left ?_
    simp [hunlocked]
  | none =>
    cases hopened : session.opened with
    | none => exact hnext _ _ _ none hcustody hundisturbed (.inl hopened) rfl rfl
    | some number =>
      refine achieves_ite.mpr ⟨?_, ?_⟩
      · intro hempty
        refine hnext _ _ _ none hcustody hundisturbed (.inr ?_) rfl rfl
        rw [← hkey.keyId_eq]
        exact List.isEmpty_iff.mp hempty
      -- The query comes from the open native session with nothing in between, so its answer counts.
      · intro hkeyId
        refine achieves_bind.mpr (achieves_ask.mpr ⟨hcustody.used hopened, ?_⟩)
        intro session' history' status hback
        obtain ⟨rfl, rfl⟩ := hback.quiet rfl
        have hlast : lastKey? history.marks = some session'.key.keyId :=
          hkey.lastKey?_eq (by simpa using hkeyId)
        have hanswered : KeyKept session'.opened session'.isLocked { session'.key with status := some status }
            (.answered number session'.key.keyId status :: .used number :: history.marks) :=
          .ofAnswer hopened hlast rfl
        refine achieves_bind.mpr (achieves_modify.mpr (hnext _ _ _ (some status) ?_ ?_ ?_ rfl rfl))
        · exact ⟨⟨(hcustody.used hopened).ledger.answered _ _ _, hcustody.gone, hcustody.held⟩, fun _ => hanswered⟩
        · exact Stays.undisturbed ⟨rfl, Nat.min_le_right _ _, id⟩ hunlocked
        · exact ⟨number, _, hopened, hlast, rfl⟩

/-- With the status in hand, nothing runs until the result is out. -/
theorem achieves_settle {timeout : Duration} {post : Session → List Asked → History → Except Fault Unit → Prop}
    (hcustody : Custody pinned session.holding history.marks) (hpinned : 0 < pinned) (hhandle : 0 < session.handles)
    (hquiet : hardwareErrors asked = [])
    (hnext : ∀ (session' : Session) asked' (history' : History) result, Custody pinned session'.holding history'.marks →
      Undisturbed pinned session.holding session'.holding → updates asked' = updates asked →
      Settled asked' result session' history' → post session' asked' history' result) :
    custody.Achieves pinned (settle timeout session) asked history post := by
  refine achieves_bind.mpr (achieves_await hcustody ?_)
  intro awaited asked₁ history₁ _ hawaited hundisturbed₁ hupdates₁ herrors₁
  have hhandle₁ : 0 < awaited.handles := hundisturbed₁.handles_pos hpinned hhandle
  refine achieves_bind.mpr (achieves_resolveKeyStatus hawaited hhandle₁ ?_)
  intro resolved asked₂ history₂ status hcustody₂ hundisturbed₂ hresolved hupdates₂ herrors₂
  have hundisturbed : Undisturbed pinned session.holding resolved.holding := hundisturbed₁.trans hundisturbed₂
  have hupdates : updates asked₂ = updates asked := hupdates₂.trans hupdates₁
  have herrors : hardwareErrors asked₂ = [] := herrors₂.trans (herrors₁.trans hquiet)
  refine achieves_bind.mpr (achieves_modify.mpr (achieves_ite.mpr ⟨?_, ?_⟩))
  · intro hstatus
    subst hstatus
    refine achieves_bind.mpr (achieves_get.mpr (achieves_bind.mpr (achieves_ask.mpr ⟨hcustody₂, ?_⟩)))
    intro session' history' _ hback
    obtain ⟨rfl, rfl⟩ := hback.quiet rfl
    refine hnext _ _ _ _ hcustody₂ hundisturbed hupdates ⟨?_, rfl, rfl⟩
    refine ⟨_, hresolved, decides_outcome _, fun _ => ?_, fun hother => absurd rfl hother⟩
    exact ⟨_, congrArg (List.cons _) herrors, rfl⟩
  · intro hstatus
    refine hnext _ _ _ _ hcustody₂ hundisturbed hupdates ⟨?_, rfl, rfl⟩
    exact ⟨_, hresolved, decides_outcome _, fun hsome => absurd hsome hstatus, fun _ => herrors⟩

theorem achieves_process {license : Option LicenseData} {timeout : Duration}
    {post : Session → List Asked → History → Except Fault Unit → Prop}
    (hcustody : Custody pinned session.holding history.marks) (hpinned : 0 < pinned) (hhandle : 0 < session.handles)
    (hnext : ∀ (session' : Session) asked' (history' : History) result, Custody pinned session'.holding history'.marks →
      Undisturbed pinned session.holding session'.holding → Processed license session asked' result session' history' →
      post session' asked' history' result) :
    custody.Achieves pinned (process license timeout session) [] history post := by
  cases license with
  | none =>
    rw [process_none]
    refine achieves_settle hcustody hpinned hhandle rfl ?_
    intro session' asked' history' result hcustody' hundisturbed hupdates hsettled
    exact hnext _ _ _ _ hcustody' hundisturbed ⟨hsettled, hupdates⟩
  | some license =>
    rw [process_some]
    refine achieves_bind.mpr (achieves_feedLicense hcustody ?_)
    intro fed asked₁ history₁ hfed hundisturbed₁ hupdates₁ herrors₁
    refine achieves_settle hfed hpinned (hundisturbed₁.handles_pos hpinned hhandle) herrors₁ ?_
    intro session' asked' history' result hcustody' hundisturbed hupdates hsettled
    refine hnext _ _ _ _ hcustody' (hundisturbed₁.trans hundisturbed) ⟨hsettled, ?_⟩
    rw [hupdates, hupdates₁]
    cases session.opened <;> rfl

end ContentProtection.Native
