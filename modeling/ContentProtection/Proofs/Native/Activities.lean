import ContentProtection.Proofs.Native.Operations

/-!
# Activities under custody

Every call and every event keeps custody, so every run does: `custody_met`. Calls that only wait, read or set what custody is not about are put together from such steps by `Keeps.bind`. Giving up a handle is the one activity that can end custody, and an event gives one up as well.
-/

namespace ContentProtection.Native

open ContentProtection.Session (Signal)
open Outline

/-! ### Steps that keep custody -/

section

variable {α β : Type}

theorem keeps_pure (value : α) : Keeps [] (pure value) := by
  intro pinned session asked history post _ _ hcustody hnext
  exact achieves_pure.mpr (hnext _ _ _ _ hcustody (.refl pinned session.holding))

theorem keeps_get : Keeps [] (get : Operation Session) := by
  intro pinned session asked history post _ _ hcustody hnext
  exact achieves_get.mpr (hnext _ _ _ _ hcustody (.refl pinned session.holding))

theorem keeps_modifyGet {change : Session → α × Session}
    (hsame : ∀ session, (change session).2.holding = session.holding) :
    Keeps [] (modifyGet change : Operation α) := by
  intro pinned session asked history post _ _ hcustody hnext
  refine achieves_modifyGet.mpr (hnext _ _ _ _ ?_ ?_)
  · rw [hsame]
    exact hcustody
  · rw [hsame]
    exact .refl pinned session.holding

theorem keeps_modify {change : Session → Session} (hsame : ∀ session, (change session).holding = session.holding) :
    Keeps [] (modify change : Operation Unit) :=
  keeps_modifyGet hsame

theorem Keeps.bind {marked : List Mark} {program : Operation α} {next : α → Operation β}
    (hfirst : Keeps [] program) (hthen : ∀ value, Keeps marked (next value)) : Keeps marked (program >>= next) := by
  intro pinned session asked history post hpinned hhandle hcustody hnext
  refine achieves_bind.mpr (hfirst pinned session asked history _ hpinned hhandle hcustody ?_)
  intro between asked' history' value hbetween hundisturbed
  refine hthen value pinned between asked' history' post hpinned (hundisturbed.handles_pos hpinned hhandle) hbetween ?_
  intro session' asked'' history'' value' hcustody' hundisturbed'
  exact hnext _ _ _ _ hcustody' (hundisturbed.trans hundisturbed')

theorem keeps_ite {condition : Prop} [Decidable condition] {marked : List Mark} {program program' : Operation α}
    (hthen : Keeps marked program) (helse : Keeps marked program') :
    Keeps marked (if condition then program else program') := by
  split
  · exact hthen
  · exact helse

end

theorem keeps_await (which : Signal) (timeout : Duration) : Keeps [] (await which timeout) := by
  intro pinned session asked history post _ _ hcustody hnext
  apply achieves_await hcustody
  intro session' asked' history' taken hcustody' hundisturbed _ _
  exact hnext _ _ _ _ hcustody' hundisturbed

theorem keeps_awaitUnlocked : Keeps [] awaitUnlocked := by
  intro pinned session asked history post _ _ hcustody hnext
  apply achieves_awaitUnlocked hcustody
  intro _
  exact hnext _ _ _ _ hcustody (.refl pinned session.holding)

theorem keeps_setState (state : KeyState) : Keeps [] (setState state) :=
  keeps_modify fun _ => rfl

theorem keeps_takeChallenge : Keeps [] takeChallenge :=
  keeps_modifyGet fun _ => rfl

/-! ### Calls -/

theorem keeps_keyRequest (timeout : Duration) : Keeps [] (keyRequest timeout) := by
  refine (keeps_setState .error).bind fun _ => (keeps_await _ timeout).bind fun ready => ?_
  refine keeps_ite (keeps_pure none) (keeps_takeChallenge.bind fun challenge => ?_)
  exact keeps_ite (keeps_pure none) ((keeps_setState .pending).bind fun _ => keeps_pure _)

theorem keeps_waitForState (state : KeyState) (timeout : Duration) : Keeps [] (waitForState state timeout) := by
  refine keeps_get.bind fun session => keeps_ite (keeps_pure true) ?_
  exact (keeps_await _ timeout).bind fun _ => keeps_get.bind fun _ => keeps_pure _

theorem keeps_setMemory (memory : Option MemoryId) : Keeps [] (setMemory memory) :=
  keeps_awaitUnlocked.bind fun _ => keeps_modify fun _ => rfl

theorem keeps_retain : Keeps [] retain := by
  intro pinned session asked history post _ hhandle hcustody hnext
  refine achieves_modify.mpr (hnext _ _ _ _ (hcustody.retain hhandle (Nat.le_refl pinned)) ?_)
  refine ⟨⟨rfl, ?_, ?_⟩, fun _ => rfl, fun _ hstatus => hstatus⟩
  · exact Nat.le_trans (Nat.min_le_right _ _) (Nat.le_succ session.handles)
  · intro hgone
    exact absurd hgone (Nat.ne_of_gt hhandle)

/-- What the end of a call marks. -/
def Call.marked : Call → List Mark
  | clear => [.keyed none]
  | _ => []

theorem marks_ended_call (made : Call) (entry : Session) (asked : List Asked) (result : made.Result)
    (history : History) :
    History.marks (.ended ⟨.call made, entry, asked, result⟩ :: history) = made.marked ++ history.marks := by
  cases made <;> rfl

theorem pins_call {made : Call} (hrelease : made ≠ .release) (pinned : Nat) :
    (Activity.call made).pins pinned = max 1 pinned := by
  cases made <;> first | rfl | exact absurd rfl hrelease

theorem hasHandle_call {made : Call} (hrelease : made ≠ .release) (pinned handles : Nat) :
    (Activity.call made).hasHandle pinned handles = decide (0 < handles) := by
  cases made <;> first | rfl | exact absurd rfl hrelease

/-- A call that has kept custody gives back the handle that it borrowed. -/
theorem owes_call {made : Call} {pinned : Nat} {entry session : Session} {asked : List Asked}
    {earlier history : History} {result : made.Result} (hentry : Custody pinned entry.holding earlier.marks)
    (hcustody : Custody (max 1 pinned) session.holding (made.marked ++ history.marks))
    (hundisturbed : Undisturbed (max 1 pinned) entry.holding session.holding)
    (hreport : custody.Report ⟨.call made, entry, asked, result⟩ session history) :
    custody.Owes (.call made) entry pinned session asked history result := by
  refine ⟨?_, hundisturbed.mono (Nat.le_max_right 1 pinned), hreport⟩
  rw [← marks_ended_call made entry asked result history] at hcustody
  exact hcustody.giveBack hentry hundisturbed.isLocked_eq

theorem metBy_call {made : Call} (hrelease : made ≠ .release) (hkeeps : Keeps made.marked made.program)
    (hreport : ∀ entry asked result session history,
      custody.Report ⟨.call made, entry, asked, result⟩ session history) :
    custody.MetBy (.call made) := by
  intro pinned session history (hcustody : Custody pinned session.holding history.marks) hhandle
  rw [hasHandle_call hrelease, decide_eq_true_eq] at hhandle
  rw [pins_call hrelease]
  refine hkeeps _ session [] _ _ (Nat.le_max_left 1 pinned) hhandle (hcustody.borrow hhandle) ?_
  intro session' asked' history' result hcustody' hundisturbed
  exact owes_call hcustody hcustody' hundisturbed (hreport _ _ _ _ _)

theorem metBy_process (license : Option LicenseData) (timeout : Duration) :
    custody.MetBy (.call (.process license timeout)) := by
  intro pinned session history (hcustody : Custody pinned session.holding history.marks) hhandle
  rw [hasHandle_call (by simp), decide_eq_true_eq] at hhandle
  rw [pins_call (by simp)]
  refine achieves_process (hcustody.borrow hhandle) (Nat.le_max_left 1 pinned) hhandle ?_
  intro session' asked' history' result hcustody' hundisturbed hprocessed
  exact owes_call hcustody hcustody' hundisturbed hprocessed

/-! ### Giving up a handle -/

/-- The last handle takes the open native session with it; only an unlocked session can have its last handle given up. -/
theorem achieves_release {pinned : Nat} {session : Session} {asked : List Asked} {history : History}
    {post : Session → List Asked → History → Unit → Prop}
    (hledger : Ledger session.opened session.constructed history.marks) (hhandle : 0 < session.handles)
    (hunlocked : session.handles = 1 → session.isLocked = false)
    (hshared : 1 < session.handles → post { session with handles := session.handles - 1 } asked history ())
    (hlast : session.handles = 1 → ∀ (session' : Session) asked' (history' : History),
      Guarded pinned session'.holding history'.marks → session'.handles = 0 → session'.isLocked = false →
      post session' asked' history' ()) :
    custody.Achieves pinned (release session) asked history post := by
  refine achieves_bind.mpr (achieves_get.mpr (achieves_bind.mpr (achieves_modify.mpr (achieves_ite.mpr ⟨?_, ?_⟩))))
  · intro hnone
    have hone : session.handles = 1 := by omega
    have hlock := hunlocked hone
    refine achieves_closeOpened hledger ?_ ?_ ?_
    · intro hlocked
      rw [show session.isLocked = true from hlocked] at hlock
      cases hlock
    · intro hsome
      exact absurd hnone (Nat.ne_of_gt hsome)
    · intro session' asked' history' hguarded _ hstays
      have hgone : session'.handles = 0 := hstays.handles_eq_zero hnone
      exact hlast hone session' asked' history' hguarded hgone (hstays.isLocked_eq.trans hlock)
  · intro hsome
    exact hshared (by omega)

theorem metBy_release : custody.MetBy (.call .release) := by
  intro pinned session history (hcustody : Custody pinned session.holding history.marks) hhandle
  have hpinned : pinned < session.handles := of_decide_eq_true hhandle
  have hunlocked : session.handles = 1 → session.isLocked = false := fun _ => hcustody.unlocked (by omega)
  refine achieves_release hcustody.ledger (by omega) hunlocked ?_ ?_
  · intro hshared
    refine ⟨hcustody.release hshared fun hlocked => (hcustody.held hlocked).1, ?_, trivial⟩
    refine ⟨⟨rfl, ?_, ?_⟩, fun _ => rfl, fun _ hstatus => hstatus⟩
    · exact Nat.le_trans (Nat.min_le_left _ _) (Nat.le_sub_one_of_lt hpinned)
    · intro hgone
      exact absurd hgone (Nat.ne_of_gt (Nat.zero_lt_of_lt hpinned))
  · intro hone session' asked' history' hguarded hgone hunlocked'
    refine ⟨Custody.ofGone hguarded hgone, ?_, trivial⟩
    refine Stays.undisturbed ⟨hunlocked'.trans (hunlocked hone).symm, ?_, fun _ => hgone⟩ (hunlocked hone)
    exact Nat.le_trans (Nat.min_le_left _ _) (by omega)

/-! ### Events -/

/-- What the end of an event marks. -/
def Event.marked : Event → List Mark
  | keyUpdate keyId => [.keyed (some keyId)]
  | _ => []

theorem marks_ended_event (event : Event) (entry : Session) (asked : List Asked) (history : History) :
    History.marks (.ended ⟨.event event, entry, asked, ()⟩ :: history) = event.marked ++ history.marks := by
  cases event <;> rfl

theorem ledger_marked {event : Event} {opened : Option Nat} {constructed : Nat} {marks : List Mark} :
    Ledger opened constructed (event.marked ++ marks) ↔ Ledger opened constructed marks := by
  cases event with
  | keyUpdate keyId => exact ⟨.of_keyed, .keyed _⟩
  | challenge | error | keysUpdated => exact Iff.rfl

theorem keeps_loud {request : ContentProtection.Session.Request} (hloud : isQuiet request = false)
    (hasked : (Entry.asked request).mark? = none) (hreplied : ∀ reply, (Entry.replied request reply).mark? = none) :
    Keeps [] (ContentProtection.Session.ask request : Operation _) := by
  intro pinned session asked history post _ _ hcustody hnext
  refine achieves_loud hloud ?_ ?_
  · rw [History.marks, List.filterMap_cons_none hasked]
    exact hcustody
  · intro session' history' reply hcustody' hundisturbed
    refine hnext _ _ _ _ ?_ hundisturbed
    rw [History.marks, List.filterMap_cons_none (hreplied reply)]
    exact hcustody'

theorem keeps_signal (which : Signal) : Keeps [] (signal which) :=
  keeps_modify fun session => session.holding_setLatch _ which

theorem keeps_onChallenge (url : String) (payload : Bytes) : Keeps [] (onChallenge url payload) := by
  refine keeps_get.bind fun session => keeps_ite ?_ ?_
  · exact keeps_ite (keeps_loud rfl rfl fun _ => rfl) (keeps_pure ())
  · refine Keeps.bind (keeps_modify ?_) fun _ => (keeps_signal _).bind fun _ => ?_
    · intro _
      rfl
    · exact keeps_ite (keeps_loud rfl rfl fun _ => rfl) (keeps_pure ())

theorem keeps_onKeyUpdate (keyId : Bytes) : Keeps [.keyed (some keyId)] (onKeyUpdate keyId) := by
  intro pinned session asked history post _ _ hcustody hnext
  refine achieves_bind.mpr (achieves_get.mpr ?_)
  cases hasked : if session.isLocked then none else session.opened with
  | none =>
    refine achieves_modify.mpr (hnext _ _ _ () ?_ ?_)
    · exact ⟨⟨hcustody.ledger.keyed _, hcustody.gone, hcustody.held⟩, fun _ => .unanswered rfl rfl⟩
    · exact ⟨⟨rfl, Nat.min_le_right _ _, id⟩, fun _ => rfl, fun _ _ => rfl⟩
  | some number =>
    obtain ⟨hunlocked, hopened⟩ : session.isLocked = false ∧ session.opened = some number := by
      simpa using hasked
    have hused := hcustody.used hopened
    refine achieves_bind.mpr (achieves_ask.mpr ⟨hused, ?_⟩)
    intro session' history' status hback
    obtain ⟨rfl, rfl⟩ := hback.quiet rfl
    refine achieves_modify.mpr (hnext _ _ _ () ?_ ?_)
    · refine ⟨⟨(hused.ledger.answered _ _ _).keyed _, hcustody.gone, hcustody.held⟩, fun _ => ?_⟩
      exact .ofAnswer hopened rfl rfl
    · exact Stays.undisturbed ⟨rfl, Nat.min_le_right _ _, id⟩ hunlocked

theorem keeps_handle (event : Event) : Keeps event.marked (handle event) := by
  cases event with
  | challenge url payload => exact keeps_onChallenge url payload
  | keyUpdate keyId => exact keeps_onKeyUpdate keyId
  | error message => exact keeps_pure ()
  | keysUpdated => exact keeps_signal _

theorem owes_event {event : Event} {pinned : Nat} {entry session : Session} {asked : List Asked} {history : History}
    (hcustody : Custody pinned session.holding (event.marked ++ history.marks))
    (hundisturbed : Undisturbed pinned entry.holding session.holding) :
    custody.Owes (.event event) entry pinned session asked history () := by
  rw [← marks_ended_event event entry asked history] at hcustody
  exact ⟨hcustody, hundisturbed, trivial⟩

/-- The handle that an event takes can become the last one while it is handled. -/
theorem metBy_event (event : Event) : custody.MetBy (.event event) := by
  intro pinned session history (hcustody : Custody pinned session.holding history.marks) _
  refine achieves_bind.mpr (achieves_get.mpr (achieves_ite.mpr ⟨?_, ?_⟩))
  · intro hgone
    refine owes_event (.ofGone ⟨?_, hcustody.gone, hcustody.held⟩ hgone) (.refl pinned session.holding)
    exact ledger_marked.mpr hcustody.ledger
  · intro hsome
    have hhandle : 0 < session.handles := Nat.pos_of_ne_zero hsome
    have hretained := hcustody.retain hhandle (Nat.le_succ pinned)
    refine achieves_bind.mpr (achieves_modify.mpr (achieves_bind.mpr ?_))
    refine keeps_handle event (pinned + 1) _ _ _ _ (Nat.succ_pos pinned) (Nat.succ_pos session.handles) hretained ?_
    intro handled _ _ _ hhandled ⟨⟨hlock, hhandles, _⟩, hopen, hstatus⟩
    -- The host can have given up all its own handles meanwhile, but then no call of it is suspended.
    have hhandles' : min (pinned + 1) (session.handles + 1) ≤ handled.handles := hhandles
    have hunlocked : handled.handles = 1 → session.isLocked = false := fun _ => hcustody.unlocked (by omega)
    have hunlocked' : handled.handles = 1 → handled.isLocked = false := fun hone => hlock.trans (hunlocked hone)
    refine achieves_release (ledger_marked.mp hhandled.ledger) (by omega) hunlocked' ?_ ?_
    · intro hshared
      refine owes_event (hhandled.release hshared ?_) ⟨⟨hlock, ?_, ?_⟩, hopen, hstatus⟩
      · intro hlocked
        exact (hcustody.held (hlock.symm.trans hlocked)).1
      · show min pinned session.handles ≤ handled.handles - 1
        omega
      · intro hgone
        exact absurd hgone hsome
    · intro hone session' _ _ ⟨hledger, hgone, _⟩ hnone hlock'
      refine owes_event (.ofGone ⟨ledger_marked.mpr hledger, hgone, ?_⟩ hnone) ?_
      · intro hlocked
        cases hlock'.symm.trans hlocked
      · refine Stays.undisturbed ⟨hlock'.trans (hunlocked hone).symm, ?_, fun _ => hnone⟩ (hunlocked hone)
        show min pinned session.handles ≤ session'.handles
        omega

theorem custody_met : custody.Met := by
  intro activity
  cases activity with
  | event event => exact metBy_event event
  | call made =>
    cases made with
    | process license timeout => exact metBy_process license timeout
    | release => exact metBy_release
    | generate initData customData =>
      exact metBy_call (by simp) (keeps_generate initData customData) fun _ _ _ _ _ => trivial
    | keyRequest timeout => exact metBy_call (by simp) (keeps_keyRequest timeout) fun _ _ _ _ _ => trivial
    | decrypt encryption payload =>
      exact metBy_call (by simp) (keeps_decrypt encryption payload) fun _ _ _ _ _ => trivial
    | waitForState state timeout =>
      exact metBy_call (by simp) (keeps_waitForState state timeout) fun _ _ _ _ _ => trivial
    | clear => exact metBy_call (by simp) keeps_clear fun _ _ _ _ _ => trivial
    | setMemory memory => exact metBy_call (by simp) (keeps_setMemory memory) fun _ _ _ _ _ => trivial
    | setOutputProtection enabled =>
      exact metBy_call (by simp) (keeps_modify fun _ => rfl) fun _ _ _ _ _ => trivial
    | setSecurityManager handle =>
      exact metBy_call (by simp) (keeps_modify fun _ => rfl) fun _ _ _ _ _ => trivial
    | changeOutputLink link =>
      exact metBy_call (by simp) (keeps_modify fun _ => rfl) fun _ _ _ _ _ => trivial
    | retain => exact metBy_call (by simp) keeps_retain fun _ _ _ _ _ => trivial

end ContentProtection.Native
