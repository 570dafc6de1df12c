import ContentProtection.Helper.Systems
import ContentProtection.Proofs.Native.Activities

/-!
# What every run guarantees

Read off `custody_met`: no run leaks a native session, closes one twice or uses one that is closed, and a license that was processed is judged by what the open native session said of the current key. Events and calls may be nested as deep as the module and the side channel let them, and replies are whatever they are.
-/

namespace ContentProtection.Native

open ContentProtection.Session (Fault)

variable {setting : Setting} {moment : Moment}

theorem Reachable.fits (hreach : Reachable setting moment) : custody.Fits moment :=
  custody_met.fits (Custody.initial setting) hreach

theorem Reachable.custody (hreach : Reachable setting moment) :
    Custody (pinned moment.frames) moment.session.holding moment.history.marks :=
  hreach.fits.holds

/-! ### Native sessions -/

/-- A native session that was constructed and not closed so far. -/
def Unclosed (history : History) (number : Nat) : Prop :=
  0 < number ∧ number ≤ history.marks.count .constructed ∧ .closed number ∉ history.marks

/-- Without handles, an event is over before it asks for anything. -/
theorem begin_event_of_gone (event : Event) (hgone : moment.session.handles = 0) :
    moment.begin (.event event) =
      { moment with
        history := .ended ⟨.event event, moment.session, [], ()⟩ :: .began (.event event) :: moment.history } := by
  have hdone : (Activity.event event).program moment.session = .done moment.session () := by
    show (if moment.session.handles = 0 then _ else _ : Operation Unit) moment.session = _
    rw [if_pos hgone]
    rfl
  rw [Moment.begin, hdone]
  rfl

/-- At most one native session is open at any moment, none is closed twice or used after it was closed, and when the last handle is gone all have been closed, and events reach nobody any more. -/
theorem native_sessions_closed_once (hreach : Reachable setting moment) :
    (∀ first second, Unclosed moment.history first → Unclosed moment.history second → first = second) ∧
    (∀ number, moment.history.marks.count (.closed number) ≤ 1) ∧
    (∀ later number earlier, moment.history.marks = later ++ .used number :: earlier → .closed number ∉ earlier) ∧
    (moment.session.handles = 0 →
      (∀ number, 0 < number → number ≤ moment.history.marks.count .constructed →
        moment.history.marks.count (.closed number) = 1) ∧
      ∀ event, (moment.begin (.event event)).session = moment.session ∧
        (moment.begin (.event event)).frames = moment.frames ∧
        (moment.begin (.event event)).history.requests = moment.history.requests) := by
  have hledger : Ledger moment.session.opened moment.session.constructed moment.history.marks := hreach.custody.ledger
  refine ⟨?_, ?_, hledger.used_before_closed, ?_⟩
  · rintro first second ⟨hfirst, hfirst', hopen⟩ ⟨hsecond, hsecond', hopen'⟩
    have hopened := hledger.opened_of_not_closed hfirst hfirst' hopen
    rw [hledger.opened_of_not_closed hsecond hsecond' hopen'] at hopened
    exact (Option.some.inj hopened).symm
  · intro number
    rw [hledger.count_closed]
    split <;> omega
  · intro hgone
    have hopened : moment.session.opened = none := hreach.custody.gone hgone
    refine ⟨?_, ?_⟩
    · intro number hpos hle
      rw [hledger.count_constructed] at hle
      rw [hledger.count_closed, if_pos ⟨hpos, hle, by simp [hopened]⟩]
    · intro event
      rw [begin_event_of_gone event hgone]
      exact ⟨rfl, rfl, rfl⟩

/-! ### A run with a renewal -/

def settingWithSideChannel : Setting := { helper := Helper.ofInfo (.ofSystem .clearKey) {}, hasSideChannel := true }

/-- A license renewal that the side channel carries out while a license is fed: it clears the native session and makes another one before the update returns. A native session without an id was refused before that. -/
def movesOfRenewal : List Move :=
  [.begin (.call (.generate [] none)),
    .reply (.createSystem settingWithSideChannel.helper.keySystem) true,
    .reply (.construct [] none) (.ok ""),
    .reply (.close 1) (),
    .begin (.call (.generate [] none)),
    .reply (.construct [] none) (.ok "first"),
    .begin (.call (.process (some ⟨[1]⟩) ⟨0⟩)),
    .begin (.event (.challenge "" [49, 58, 84, 121, 112, 101, 58, 120])),
    .begin (.call .clear),
    .reply (.close 2) (),
    .begin (.call (.generate [] none)),
    .reply (.construct [] none) (.ok "second"),
    .begin (.event (.keyUpdate [2])),
    .reply (.queryStatus 3 [2]) .usable,
    .reply .renew (),
    .reply (.update 2 [1]) (.ok ()),
    .begin (.event .keysUpdated),
    .reply (.wait .keyStatusReady ⟨0⟩) ()]

theorem native_sessions_closed_once_after_renewal :
    ∃ moment, Reachable settingWithSideChannel moment ∧ moment.session.handles = 0 ∧
      moment.history.marks.count .constructed = 3 ∧ moment.history.marks.count (.closed 1) = 1 ∧
      moment.history.marks.count (.closed 2) = 1 ∧ moment.history.marks.count (.closed 3) = 1 := by
  have hrun : ∃ moment, (Moment.initial settingWithSideChannel).run?
      (movesOfRenewal ++ [.begin (.call .release), .reply (.close 3) ()]) = some moment ∧
        moment.session.handles = 0 ∧ moment.history.marks.count .constructed = 3 :=
    ⟨_, rfl, rfl, by decide⟩
  obtain ⟨moment, hrun, hgone, hcount⟩ := hrun
  have hreach : Reachable settingWithSideChannel moment := ⟨_, hrun⟩
  obtain ⟨-, -, -, hclosed⟩ := native_sessions_closed_once hreach
  obtain ⟨honce, -⟩ := hclosed hgone
  exact ⟨moment, hreach, hgone, hcount, honce 1 (by omega) (by omega), honce 2 (by omega) (by omega),
    honce 3 (by omega) (by omega)⟩

/-! ### Licenses -/

/-- What a processed license comes to. The result and the state follow from one status, which is the answer of the open native session for the key that was updated last, if there was any to be had. -/
theorem process_settled_by_current_key {license : Option LicenseData} {timeout : Duration} {entry : Session}
    {asked : List Asked} {result : Except Fault Unit} {earlier : History} (hreach : Reachable setting moment)
    (hended : moment.history = .ended ⟨.call (.process license timeout), entry, asked, result⟩ :: earlier) :
    (∀ given number, license = some given → entry.opened = some number → updates asked = [(number, given.bytes)]) ∧
    (license = none ∨ entry.opened = none → updates asked = []) ∧
    (∃ status, Resolved moment.session.opened moment.history.marks status ∧ Decides status result ∧
      (status = some .hardwareError → ∃ reported, hardwareErrors asked = [reported] ∧ reported.state = .error) ∧
      (status ≠ some .hardwareError → hardwareErrors asked = [])) ∧
    (moment.session.state = .ready ↔ result = .ok ()) ∧
    (moment.session.state = .error ↔ ∃ fault, result = .error fault) ∧
    moment.session.stateChanged.isSignalled = true := by
  obtain ⟨⟨hdecided, hstate, hsignalled⟩, hupdates⟩ := hreach.fits.report _ _ hended
  have hmarks : moment.history.marks = earlier.marks := by
    rw [hended]
    rfl
  rw [hmarks, hstate]
  refine ⟨?_, ?_, hdecided, ?_, ?_, hsignalled⟩
  · intro given number hgiven hopened
    rw [hupdates, hgiven, hopened]
  · rintro (hnone | hnone)
    · rw [hupdates, hnone]
    · rw [hupdates, hnone]
      cases license <;> rfl
  · cases result with
    | ok => exact ⟨fun _ => rfl, fun _ => rfl⟩
    | error fault => exact ⟨nofun, nofun⟩
  · cases result with
    | ok => exact ⟨nofun, nofun⟩
    | error fault => exact ⟨fun _ => ⟨fault, rfl⟩, fun _ => rfl⟩

/-- The license went to the native session that was open then, and the result is that of the other one. -/
theorem process_settled_by_current_key_after_renewal :
    ∃ moment entry asked earlier, Reachable settingWithSideChannel moment ∧
      moment.history = .ended ⟨.call (.process (some ⟨[1]⟩) ⟨0⟩), entry, asked, .ok ()⟩ :: earlier ∧
      updates asked = [(2, [1])] ∧ moment.session.opened = some 3 ∧
      Resolved (some 3) moment.history.marks (some .usable) ∧ moment.session.state = .ready := by
  have hrun : ∃ moment entry asked earlier,
      (Moment.initial settingWithSideChannel).run? movesOfRenewal = some moment ∧
        moment.history = .ended ⟨.call (.process (some ⟨[1]⟩) ⟨0⟩), entry, asked, .ok ()⟩ :: earlier ∧
        entry.opened = some 2 ∧ moment.session.opened = some 3 :=
    ⟨_, _, _, _, rfl, rfl, rfl, rfl⟩
  obtain ⟨moment, entry, asked, earlier, hrun, hended, hentry, hopened⟩ := hrun
  have hreach : Reachable settingWithSideChannel moment := ⟨_, hrun⟩
  obtain ⟨hupdates, -, ⟨status, hresolved, hdecides, -⟩, hready, -⟩ := process_settled_by_current_key hreach hended
  rw [hopened] at hresolved
  cases hdecides
  exact ⟨moment, entry, asked, earlier, hreach, hended, hupdates _ 2 rfl hentry, hopened, hresolved, hready.mpr rfl⟩

end ContentProtection.Native
