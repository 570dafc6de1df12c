import ContentProtection.Proofs.Native.Telling
import ContentProtection.Proofs.Native.Twins

/-!
# Operations that cannot tell twins apart

One lemma for each operation of a key exchange and for the events. Only the challenge needs care: twins need not have the same one as long as nothing signals it, so a step that signals it and a step that takes it are looked at together with the step before.
-/

namespace ContentProtection.Native

open ContentProtection.Session (Signal ask)

variable {renumber : Nat → Nat} {handled : Nat}

/-! ### Steps -/

theorem alike_setState (state : KeyState) : Alike renumber handled (· = ·) (setState state) (setState state) :=
  alike_modify fun _ _ htwins => { htwins with }

theorem alike_signal {which : Signal} (hwhich : which ≠ .challengeReady) :
    Alike renumber handled (· = ·) (signal which) (signal which) := by
  refine alike_modify fun session twin htwins => ?_
  cases which with
  | challengeReady => exact absurd rfl hwhich
  | keyStatusReady => exact { htwins with keyStatusReady_eq := rfl }
  | stateChanged => exact { htwins with }

theorem Twins.takeSlot {session twin : Session} (htwins : Twins renumber handled session twin) :
    Twins renumber handled (session.setLatch {} .challengeReady) (twin.setLatch {} .challengeReady) :=
  { htwins with slot_eq := rfl }

theorem alike_takeSignal {which : Signal} (hwhich : which ≠ .stateChanged) :
    Alike renumber handled (· = ·) (takeSignal which) (takeSignal which) := by
  refine alike_modifyGet fun session twin htwins => ?_
  cases which with
  | challengeReady => exact ⟨htwins.takeSlot, htwins.isSignalled_eq.symm⟩
  | keyStatusReady =>
    exact ⟨{ htwins with keyStatusReady_eq := rfl }, congrArg Latch.isSignalled htwins.keyStatusReady_eq.symm⟩
  | stateChanged => exact absurd rfl hwhich

theorem alike_await {which : Signal} (hwhich : which ≠ .stateChanged) (timeout : Duration) :
    Alike renumber handled (· = ·) (await which timeout) (await which timeout) := by
  refine (alike_takeSignal hwhich).bind ?_
  rintro taken _ rfl
  refine alike_ite (alike_pure rfl) ((alike_ask _).bind fun _ _ _ => alike_takeSignal hwhich)

theorem alike_awaitUnlocked : Alike renumber handled (· = ·) awaitUnlocked awaitUnlocked := by
  refine alike_get.bind fun session twin htwins => ?_
  rw [htwins.isLocked_eq]
  exact alike_ite (alike_ask .waitForLock) (alike_pure rfl)

theorem alike_lock : Alike renumber handled (· = ·) lock lock :=
  alike_awaitUnlocked.bind fun _ _ _ => alike_modify fun _ _ htwins => { htwins with isLocked_eq := rfl }

theorem alike_unlock : Alike renumber handled (· = ·) unlock unlock :=
  alike_modify fun _ _ htwins => { htwins with isLocked_eq := rfl }

theorem alike_openSession :
    Alike renumber handled (fun opened opened' => opened' = opened.map renumber) openSession openSession :=
  alike_awaitUnlocked.bind fun _ _ _ => alike_get.bind fun _ _ htwins => alike_pure htwins.opened_eq

theorem alike_closeOpened : Alike renumber handled (· = ·) closeOpened closeOpened := by
  refine alike_get.bind fun session twin htwins => ?_
  rw [htwins.opened_eq]
  cases session.opened with
  | none => exact alike_pure rfl
  | some number =>
    refine Alike.bind (alike_modify fun _ _ htwins => { htwins with opened_eq := rfl }) fun _ _ _ => ?_
    exact alike_ask (.close number)

/-! ### Making a native session -/

theorem alike_ensureSystem : Alike renumber handled (· = ·) ensureSystem ensureSystem := by
  refine alike_get.bind fun session twin htwins => ?_
  rw [htwins.hasSystem_eq, htwins.hasSystem]
  exact alike_pure rfl

theorem alike_numberConstructed :
    Alike renumber handled (fun number number' => number' = renumber number) numberConstructed numberConstructed := by
  refine alike_modifyGet fun session twin htwins => ⟨{ htwins with constructed_eq := ?_ }, ?_⟩
  · intro more
    have hmore := htwins.constructed_eq (1 + more)
    rwa [← Nat.add_assoc, ← Nat.add_assoc] at hmore
  · exact (htwins.constructed_eq 1).symm

theorem alike_construct (initData : Bytes) (customData : Option Bytes) :
    Alike renumber handled (· = ·) (construct initData customData) (construct initData customData) := by
  refine (alike_ask (.construct initData customData)).bind ?_
  rintro _ reply rfl
  cases reply with
  | error status => exact alike_setState .error
  | ok id =>
    refine alike_numberConstructed.bind ?_
    rintro number _ rfl
    refine alike_ite ?_ (alike_modify fun _ _ htwins => { htwins with opened_eq := rfl })
    exact (alike_ask (.close number)).bind fun _ _ _ => alike_setState .emptySessionId

theorem alike_generate (initData : Bytes) (customData : Option Bytes) :
    Alike renumber handled (· = ·) (generate initData customData) (generate initData customData) := by
  refine alike_lock.bind fun _ _ _ => alike_ensureSystem.bind ?_
  rintro ensured _ rfl
  refine alike_ite ?_ ?_
  · refine alike_closeOpened.bind fun _ _ _ => Alike.bind (alike_modify ?_) fun _ _ _ => ?_
    · intro session twin htwins
      exact { htwins with key_eq := rfl, slot_eq := rfl, keyStatusReady_eq := rfl }
    · exact (alike_construct initData customData).bind fun _ _ _ => alike_unlock
  · exact (alike_setState .error).bind fun _ _ _ => alike_unlock

/-! ### Key requests -/

theorem handOut_true (session : Session) :
    handOut true session = offer session.challenge { session with challenge := {} } := rfl

theorem alike_offer (challenge : PendingChallenge) :
    Alike renumber handled (· = ·) (offer challenge) (offer challenge) :=
  alike_ite (alike_pure rfl) ((alike_setState .pending).bind fun _ _ _ => alike_pure rfl)

/-- Whoever takes the signal hands out what twins have in common. -/
theorem together_handOut {session twin : Session} (htwins : Twins renumber handled session twin) :
    Together renumber handled (Rejoined renumber handled (· = ·))
      (handOut session.challengeReady.isSignalled (session.setLatch {} .challengeReady))
      (handOut twin.challengeReady.isSignalled (twin.setLatch {} .challengeReady)) := by
  rw [htwins.isSignalled_eq]
  cases hsignalled : session.challengeReady.isSignalled with
  | false => exact .done ⟨htwins.takeSlot, rfl⟩
  | true =>
    -- twins have the same challenge as long as it is signalled, and here the signal is just being taken
    have hchallenge : (twin.setLatch {} .challengeReady).challenge = (session.setLatch {} .challengeReady).challenge :=
      htwins.challenge_eq hsignalled
    rw [handOut_true, handOut_true, hchallenge]
    exact alike_offer _ _ _ { htwins.takeSlot with slot_eq := rfl }

theorem keyRequest_apply (timeout : Duration) (session : Session) :
    keyRequest timeout session =
      if session.challengeReady.isSignalled then
        handOut true ({ session with state := .error : Session }.setLatch {} .challengeReady)
      else .ask ({ session with state := .error : Session }.setLatch {} .challengeReady) (.wait .challengeReady timeout)
        fun after _ => handOut after.challengeReady.isSignalled (after.setLatch {} .challengeReady) := by
  rw [keyRequest_eq]
  show Interaction.andThen handOut ((if session.challengeReady.isSignalled = true then pure true else do
    ask (.wait .challengeReady timeout)
    takeSignal .challengeReady : Operation Bool) _) = _
  split <;> rfl

theorem alike_keyRequest (timeout : Duration) :
    Alike renumber handled (· = ·) (keyRequest timeout) (keyRequest timeout) := by
  intro session twin htwins
  have hfailed : Twins renumber handled { session with state := .error } { twin with state := .error } :=
    { htwins with }
  rw [keyRequest_apply, keyRequest_apply, htwins.isSignalled_eq]
  split
  · rename_i hsignalled
    have htogether := together_handOut hfailed
    rw [htwins.isSignalled_eq, hsignalled] at htogether
    exact htogether
  · exact .ask hfailed.takeSlot fun after after' _ hafter => together_handOut hafter

/-! ### Processing -/

theorem alike_feedLicense (license : LicenseData) :
    Alike renumber handled (· = ·) (feedLicense license) (feedLicense license) := by
  refine alike_openSession.bind ?_
  rintro opened _ rfl
  cases opened with
  | none => exact alike_pure rfl
  | some number => exact (alike_ask (.update number license.bytes)).bind fun _ _ _ => alike_pure rfl

theorem alike_resolveKeyStatus : Alike renumber handled (· = ·) resolveKeyStatus resolveKeyStatus := by
  refine alike_openSession.bind ?_
  rintro opened _ rfl
  refine alike_get.bind fun session twin htwins => ?_
  rw [htwins.key_eq]
  dsimp only
  cases session.key.status with
  | some status => exact alike_pure rfl
  | none =>
    cases opened with
    | none => exact alike_pure rfl
    | some number =>
      refine alike_ite (alike_pure rfl) ((alike_ask (.queryStatus number session.key.keyId)).bind ?_)
      rintro _ status rfl
      refine Alike.bind (alike_modify fun _ _ htwins => { htwins with key_eq := ?_ }) fun _ _ _ => alike_pure rfl
      rw [htwins.key_eq]

theorem alike_settle (timeout : Duration) : Alike renumber handled (· = ·) (settle timeout) (settle timeout) := by
  refine (alike_await (by decide) timeout).bind fun _ _ _ => alike_resolveKeyStatus.bind ?_
  rintro status _ rfl
  refine (alike_setState _).bind fun _ _ _ => ?_
  refine alike_ite ?_ ?_
  · refine alike_get.bind fun session twin htwins => ?_
    rw [htwins.keySystem_eq]
    refine (alike_ask (.hardwareError session.keySystem)).bind fun _ _ _ => ?_
    exact (alike_signal (by decide)).bind fun _ _ _ => alike_pure rfl
  · exact (alike_signal (by decide)).bind fun _ _ _ => alike_pure rfl

theorem alike_process (license : Option LicenseData) (timeout : Duration) :
    Alike renumber handled (· = ·) (process license timeout) (process license timeout) := by
  cases license with
  | none =>
    rw [process_none]
    exact alike_settle timeout
  | some license =>
    rw [process_some]
    exact (alike_feedLicense license).bind fun _ _ _ => alike_settle timeout

/-! ### Decrypting and clearing -/

theorem alike_decryptThrough (memory : MemoryId) (number : Nat) (encryption : Sample.Encryption) (payload : Bytes) :
    Alike renumber handled (· = ·) (decryptThrough memory number encryption payload)
      (decryptThrough memory (renumber number) encryption payload) := by
  refine (alike_ask (.encode memory payload)).bind ?_
  rintro _ encoded rfl
  cases encoded with
  | none => exact alike_pure rfl
  | some encoded =>
    refine (alike_ask (.decrypt number encryption encoded)).bind ?_
    rintro _ ⟨status | _, decrypted⟩ rfl
    · exact (alike_ask (.terminateEarly memory)).bind fun _ _ _ => alike_pure rfl
    · refine (alike_ask (.decode memory decrypted payload)).bind ?_
      rintro _ ⟨_ | _, buffer⟩ rfl <;> exact alike_pure rfl

theorem alike_decryptOpened (number : Nat) (encryption : Sample.Encryption) (payload : Bytes) :
    Alike renumber handled (· = ·) (decryptOpened number encryption payload)
      (decryptOpened (renumber number) encryption payload) := by
  refine alike_get.bind fun session twin htwins => ?_
  rw [htwins.memory_eq]
  cases session.memory with
  | some memory => exact alike_decryptThrough memory number encryption payload
  | none =>
    refine (alike_ask (.decrypt number encryption payload)).bind ?_
    rintro _ ⟨status | _, buffer⟩ rfl <;> exact alike_pure rfl

theorem alike_decrypt (encryption : Sample.Encryption) (payload : Bytes) :
    Alike renumber handled (· = ·) (decrypt encryption payload) (decrypt encryption payload) := by
  refine alike_get.bind fun session twin htwins => ?_
  rw [htwins.violatesOutput_eq]
  refine alike_ite (alike_pure rfl) (alike_lock.bind fun _ _ _ => alike_get.bind fun session twin htwins => ?_)
  rw [htwins.opened_eq]
  cases session.opened with
  | none => exact alike_unlock.bind fun _ _ _ => alike_pure rfl
  | some number =>
    refine (alike_decryptOpened number encryption payload).bind ?_
    rintro result _ rfl
    exact alike_unlock.bind fun _ _ _ => alike_pure rfl

theorem alike_clear : Alike renumber handled (· = ·) clear clear := by
  refine alike_lock.bind fun _ _ _ => alike_closeOpened.bind fun _ _ _ => ?_
  refine Alike.bind (alike_modify ?_) fun _ _ _ => alike_unlock
  intro session twin htwins
  exact { htwins with key_eq := rfl }

/-! ### Events -/

theorem alike_onChallenge (url : String) (payload : Bytes) :
    Alike renumber handled (· = ·) (onChallenge url payload) (onChallenge url payload) := by
  refine alike_get.bind fun session twin htwins => ?_
  rw [htwins.hasSideChannel_eq]
  refine alike_ite (alike_ite (alike_ask (.individualize _)) (alike_pure rfl)) ?_
  intro before before' hbefore
  have hdelivered : Twins renumber handled { before with challenge := { payload, url }, challengeReady := ⟨true⟩ }
      { before' with challenge := { payload, url }, challengeReady := ⟨true⟩ } :=
    { hbefore with slot_eq := rfl }
  exact alike_ite (alike_ask .renew) (alike_pure rfl) _ _ hdelivered

theorem alike_onKeyUpdate (keyId : Bytes) :
    Alike renumber handled (· = ·) (onKeyUpdate keyId) (onKeyUpdate keyId) := by
  refine alike_get.bind fun session twin htwins => ?_
  rw [htwins.isLocked_eq, htwins.opened_eq]
  have hopen : Alike renumber handled (· = ·)
      (modify fun session => { session with key := { keyId } } : Operation Unit)
      (modify fun session => { session with key := { keyId } }) :=
    alike_modify fun _ _ htwins => { htwins with key_eq := rfl }
  cases session.isLocked with
  | true => exact hopen
  | false =>
    cases session.opened with
    | none => exact hopen
    | some number =>
      refine (alike_ask (.queryStatus number keyId)).bind ?_
      rintro _ status rfl
      exact alike_modify fun _ _ htwins => { htwins with key_eq := rfl }

theorem alike_handle (event : Event) : Alike renumber handled (· = ·) (handle event) (handle event) := by
  cases event with
  | challenge url payload => exact alike_onChallenge url payload
  | keyUpdate keyId => exact alike_onKeyUpdate keyId
  | error message => exact alike_pure rfl
  | keysUpdated => exact alike_signal (by decide)

theorem deliver_of_handle {session : Session} (event : Event) (hhandle : 0 < session.handles) :
    deliver event session =
      (handle event { session with handles := session.handles + 1 }).andThen fun _ => release := by
  show (if session.handles = 0 then _ else _ : Operation Unit) session = _
  rw [if_neg (Nat.ne_of_gt hhandle)]
  rfl

theorem release_of_shared {session : Session} (hshared : 1 < session.handles) :
    release session = .done { session with handles := session.handles - 1 } () := by
  show (if session.handles - 1 = 0 then closeOpened else pure () : Operation Unit)
    { session with handles := session.handles - 1 } = _
  rw [if_neg (by omega)]
  rfl

/-- The handle that an event is handled under is not the last one. -/
theorem together_deliver {session twin : Session} (event : Event) (htwins : Twins renumber handled session twin) :
    Together renumber (handled + 1) (Rejoined renumber handled (· = ·)) (deliver event session)
      (deliver event twin) := by
  have hretained : Twins renumber (handled + 1) { session with handles := session.handles + 1 }
      { twin with handles := twin.handles + 1 } :=
    { htwins with
      lt_handles := Nat.succ_lt_succ htwins.lt_handles
      lt_handles_twin := Nat.succ_lt_succ htwins.lt_handles_twin }
  rw [deliver_of_handle event (Nat.zero_lt_of_lt htwins.lt_handles),
    deliver_of_handle event (Nat.zero_lt_of_lt htwins.lt_handles_twin)]
  refine (alike_handle event _ _ hretained).andThen ?_
  rintro after _ after' _ ⟨hafter, -⟩
  have hleft := hafter.lt_handles
  have hleft' := hafter.lt_handles_twin
  rw [release_of_shared (by omega), release_of_shared (by omega)]
  refine .done ⟨{ hafter with lt_handles := ?_, lt_handles_twin := ?_ }, rfl⟩
  · exact Nat.lt_sub_of_add_lt hleft
  · exact Nat.lt_sub_of_add_lt hleft'

end ContentProtection.Native
