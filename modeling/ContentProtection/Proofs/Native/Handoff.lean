import ContentProtection.Proofs.Native.Lifecycle
import ContentProtection.Proofs.Native.Telling

/-!
# How challenges are handed out

Between the module and the license server there is one slot. The newest challenge is in it until a key request takes it or a native session is constructed, and what a key request hands out is the challenge that is in the slot when its wait is over, with its own address. A key request that hands out nothing has set the state to `error` before its wait, and leaves it to whatever else runs meanwhile.
-/

namespace ContentProtection.Native

open ContentProtection.Session (KeyRequest)

variable {setting : Setting} {moment : Moment}

/-! ### What is in the slot -/

theorem Entry.eq_of_slot? {entry : Entry} {challenge : PendingChallenge} (hslot : entry.slot? = some (some challenge)) :
    entry = .began (.event (.challenge challenge.url challenge.payload)) ∧
      Challenge.kind challenge.payload ≠ .individualization := by
  unfold Entry.slot? at hslot
  split at hslot
  · split at hslot
    · cases hslot
    · rename_i hkind
      cases hslot
      exact ⟨rfl, hkind⟩
  · cases hslot
  · cases hslot
  · cases hslot

/-- What is in the slot was delivered, and nothing has filled or emptied the slot since. -/
theorem History.delivered {history : History} {challenge : PendingChallenge} (hslot : history.slot = some challenge) :
    ∃ later before, history = later ++ .began (.event (.challenge challenge.url challenge.payload)) :: before ∧
      Challenge.kind challenge.payload ≠ .individualization ∧ ∀ entry ∈ later, entry.slot? = none := by
  have hfound : history.findSome? Entry.slot? = some (some challenge) :=
    (Option.getD_eq_iff.mp hslot).resolve_right (by simp)
  obtain ⟨later, entry, before, hhistory, hentry, hlater⟩ := List.findSome?_eq_some_iff.mp hfound
  obtain ⟨rfl, hkind⟩ := Entry.eq_of_slot? hentry
  exact ⟨later, before, hhistory, hkind, hlater⟩

theorem PendingChallenge.request?_eq_some {challenge : PendingChallenge} {request : KeyRequest}
    (hrequest : challenge.request? = some request) : challenge.payload ≠ [] ∧
      request = ⟨⟨Challenge.body challenge.payload⟩, challenge.url, Challenge.kind challenge.payload⟩ := by
  rw [PendingChallenge.request?] at hrequest
  split at hrequest
  · cases hrequest
  · rename_i hpayload
    cases hrequest
    exact ⟨by simpa using hpayload, rfl⟩

/-- Later entries than the beginning of a key request may show another state than the `error` that it sets. -/
theorem History.state_of_keyRequest (later before : History) (timeout : Duration) :
    History.state (later ++ .began (.call (.keyRequest timeout)) :: before) =
      (later.findSome? Entry.state?).getD .error := by
  rw [History.state, List.findSome?_append]
  cases later.findSome? Entry.state? <;> rfl

/-! ### Key requests -/

/-- The slot as the history tells it is the slot of the session. A native session is constructed, which empties the slot, unless there is no system for it. A key request hands out what is in the slot: a challenge that was delivered and not replaced, taken or dropped since. Without one it leaves the state at `error`, unless something has set another state since it began. -/
theorem challenge_handed_out_once (hreach : Reachable setting moment) :
    (0 < moment.session.handles → moment.session.slot = moment.history.slot) ∧
    (∀ initData customData entry asked (earlier : History),
      moment.history = .ended ⟨.call (.generate initData customData), entry, asked, ()⟩ :: earlier →
        (∃ session, ⟨session, .construct initData customData⟩ ∈ asked) ∨
          ∃ keySystem before, earlier = .replied (.createSystem keySystem) false :: before) ∧
    (∀ timeout entry asked result (earlier : History),
      moment.history = .ended ⟨.call (.keyRequest timeout), entry, asked, result⟩ :: earlier →
        result = earlier.slot.bind PendingChallenge.request? ∧
        (∀ request, result = some request → moment.session.state = .pending ∧
          ∃ later url payload before, earlier = later ++ .began (.event (.challenge url payload)) :: before ∧
            Challenge.kind payload ≠ .individualization ∧ payload ≠ [] ∧
            request = ⟨⟨Challenge.body payload⟩, url, Challenge.kind payload⟩ ∧
            ∀ between ∈ later, between.slot? = none) ∧
        (result = none → .began (.call (.keyRequest timeout)) ∈ earlier ∧
          ∀ later before, earlier = later ++ .began (.call (.keyRequest timeout)) :: before →
            moment.session.state = (later.findSome? Entry.state?).getD .error)) := by
  refine ⟨hreach.told.slot_eq, fun _ _ _ _ _ hended => hreach.reports hended, ?_⟩
  intro timeout entry asked result earlier hended
  have hresult : result = earlier.slot.bind PendingChallenge.request? := hreach.reports hended
  have hstate : moment.session.state = (Entry.ended ⟨_, entry, asked, result⟩).state?.getD earlier.state := by
    rw [← History.state_cons, ← hended]
    exact hreach.state_eq
  refine ⟨hresult, ?_, ?_⟩
  · rintro request rfl
    obtain ⟨challenge, hslot, hrequest⟩ := Option.bind_eq_some_iff.mp hresult.symm
    obtain ⟨later, before, hearlier, hkind, hlater⟩ := History.delivered hslot
    obtain ⟨hpayload, hrequest⟩ := challenge.request?_eq_some hrequest
    exact ⟨hstate, later, _, _, before, hearlier, hkind, hpayload, hrequest, hlater⟩
  · rintro rfl
    refine ⟨((ReachableFrom.begun hreach).ended _ _ hended).mem, ?_⟩
    rintro later before rfl
    rw [hstate, ← History.state_of_keyRequest later before timeout]
    rfl

/-- The first challenge, delivered during the construction, was replaced by the second, which is handed out with its own address. -/
theorem challenge_handed_out_once_after_replacement :
    ∃ moment entry asked earlier, Reachable settingWithSideChannel moment ∧
      moment.history =
        .ended ⟨.call (.keyRequest ⟨0⟩), entry, asked, some ⟨⟨[2]⟩, "second", .licenseRequest⟩⟩ :: earlier ∧
      moment.session.state = .pending ∧ moment.session.slot = none ∧
      ∃ later payload before, earlier = later ++ .began (.event (.challenge "second" payload)) :: before ∧
        Challenge.body payload = [2] ∧ ∀ between ∈ later, between.slot? = none := by
  have hrun : ∃ moment entry asked earlier, (Moment.initial settingWithSideChannel).run?
      [.begin (.call (.generate [] none)), .reply (.createSystem settingWithSideChannel.helper.keySystem) true,
        .begin (.event (.challenge "first" [1])), .reply (.construct [] none) (.ok "id"),
        .begin (.event (.challenge "second" [2])), .begin (.call (.keyRequest ⟨0⟩))] = some moment ∧
      moment.history =
        .ended ⟨.call (.keyRequest ⟨0⟩), entry, asked, some ⟨⟨[2]⟩, "second", .licenseRequest⟩⟩ :: earlier ∧
      moment.session.handles = 1 ∧ moment.history.slot = none :=
    ⟨_, _, _, _, rfl, rfl, rfl, rfl⟩
  obtain ⟨moment, entry, asked, earlier, hrun, hended, hhandles, hslot⟩ := hrun
  have hreach : Reachable settingWithSideChannel moment := ⟨_, hrun⟩
  obtain ⟨hsession, -, hrequests⟩ := challenge_handed_out_once hreach
  obtain ⟨-, hsome, -⟩ := hrequests _ _ _ _ _ hended
  obtain ⟨hstate, later, url, payload, before, hearlier, -, -, hrequest, hlater⟩ := hsome _ rfl
  simp only [KeyRequest.mk.injEq, LicenseData.mk.injEq] at hrequest
  obtain ⟨hbody, rfl, -⟩ := hrequest
  have hempty : moment.session.slot = none := (hsession (by omega)).trans hslot
  exact ⟨moment, entry, asked, earlier, hreach, hended, hstate, hempty, later, payload, before, hearlier, hbody.symm,
    hlater⟩

/-! ### A key request and a clear -/

/-- The device provisioning that comes while a key request waits has the side channel clear the session. -/
theorem key_request_refused_in_initial_state :
    ∃ moment entry asked earlier, Reachable settingWithSideChannel moment ∧
      moment.history = .ended ⟨.call (.keyRequest ⟨1000000⟩), entry, asked, none⟩ :: earlier ∧
      moment.session.state = .init :=
  ⟨_, _, _, _,
    ⟨[.begin (.call (.keyRequest ⟨1000000⟩)), .begin (.event (.challenge "" [51, 58, 84, 121, 112, 101, 58, 120])),
        .begin (.call .clear), .reply (.individualize [120]) (), .reply (.wait .challengeReady ⟨1000000⟩) ()], rfl⟩,
    rfl, rfl⟩

end ContentProtection.Native
