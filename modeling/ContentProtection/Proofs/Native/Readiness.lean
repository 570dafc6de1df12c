import ContentProtection.Proofs.Native.Lifecycle
import ContentProtection.Proofs.Native.Telling

/-!
# What readiness means

The state is `ready` from the time when a license was processed successfully until another operation sets it. That says of the native session which was open then that it had told of a usable key. Making a native session in place of it does not touch the state, so the one that is open now may be a later one, which has told nothing yet.
-/

namespace ContentProtection.Native

variable {setting : Setting} {moment : Moment}

theorem History.marks_append (later earlier : History) :
    History.marks (later ++ earlier) = later.marks ++ earlier.marks :=
  List.filterMap_append

theorem Entry.eq_of_ready {entry : Entry} (hstate : entry.state? = some .ready) :
    ∃ license timeout began asked, entry = .ended ⟨.call (.process license timeout), began, asked, .ok ()⟩ := by
  unfold Entry.state? at hstate
  split at hstate
  · cases hstate
  · cases hstate
  · cases hstate
  · cases hstate
  · unfold Record.state? at hstate
    split at hstate
    · split at hstate <;> cases hstate
    · split at hstate <;> cases hstate
    · rename_i license timeout began asked result
      cases result with
      | ok => exact ⟨license, timeout, began, asked, rfl⟩
      | error fault => cases hstate
    · cases hstate
    · cases hstate
  · cases hstate

/-- A session is ready because a license was processed successfully and no state has been set since. -/
theorem History.processed {history : History} (hready : history.state = .ready) :
    ∃ later license timeout began asked earlier,
      history = later ++ .ended ⟨.call (.process license timeout), began, asked, .ok ()⟩ :: earlier ∧
      ∀ entry ∈ later, entry.state? = none := by
  have hfound : history.findSome? Entry.state? = some .ready :=
    (Option.getD_eq_iff.mp hready).resolve_right (by simp)
  obtain ⟨later, entry, earlier, hhistory, hentry, hlater⟩ := List.findSome?_eq_some_iff.mp hfound
  obtain ⟨license, timeout, began, asked, rfl⟩ := Entry.eq_of_ready hentry
  exact ⟨later, license, timeout, began, asked, earlier, hhistory, hlater⟩

/-- When a license was processed successfully, the open native session had told that the current key is usable. -/
theorem Reachable.usable {license : Option LicenseData} {timeout : Duration} {began : Session} {asked : List Asked}
    {earlier : History} (hreach : Reachable setting moment)
    (hended : moment.history = .ended ⟨.call (.process license timeout), began, asked, .ok ()⟩ :: earlier) :
    ∃ number keyId, Ledger (some number) moment.session.constructed earlier.marks ∧
      lastKey? earlier.marks = some keyId ∧ lastAnswer? earlier.marks = some (number, keyId, .usable) := by
  obtain ⟨⟨⟨status, hresolved, hdecides, -⟩, -, -⟩, -⟩ := hreach.fits.report _ _ hended
  cases hdecides
  obtain ⟨number, keyId, hopened, hkeyId, hanswer⟩ := hresolved
  have hledger : Ledger moment.session.opened moment.session.constructed moment.history.marks := hreach.custody.ledger
  rw [hopened, hended] at hledger
  exact ⟨number, keyId, hledger, hkeyId, hanswer⟩

/-- A session that is ready has processed a license successfully, and nothing has set the state since. The native session that was open then had told, as its last answer, that the last updated key is usable. A native session is open now too, unless the lock is held: the same one, or one that was constructed after that one was closed. -/
theorem ready_since_usable_key (hreach : Reachable setting moment) (hready : moment.session.state = .ready)
    (hhandle : 0 < moment.session.handles) :
    (moment.session.isLocked = false → moment.session.opened ≠ none) ∧
    ∃ later license timeout began asked earlier number keyId,
      moment.history = later ++ .ended ⟨.call (.process license timeout), began, asked, .ok ()⟩ :: earlier ∧
      (∀ entry ∈ later, entry.state? = none) ∧
      Unclosed earlier number ∧ lastKey? (History.marks earlier) = some keyId ∧
      lastAnswer? (History.marks earlier) = some (number, keyId, .usable) ∧
      (moment.session.opened = some number ∨
        .closed number ∈ History.marks later ∧
          ∀ other, moment.session.opened = some other → (History.marks earlier).count .constructed < other) := by
  refine ⟨hreach.told.opened_of_ready hready hhandle, ?_⟩
  obtain ⟨later, license, timeout, began, asked, earlier, hhistory, hlater⟩ :=
    History.processed (hreach.state_eq.symm.trans hready)
  obtain ⟨before, hbefore, hended⟩ := hreach.at_end later hhistory
  obtain ⟨number, keyId, hthen, hkeyId, hanswer⟩ := hbefore.usable hended
  have hnow : Ledger moment.session.opened moment.session.constructed moment.history.marks := hreach.custody.ledger
  have hmarks : moment.history.marks = History.marks later ++ History.marks earlier := by
    rw [hhistory, History.marks_append]
    rfl
  have hunclosed : Unclosed earlier number := by
    obtain ⟨hpos, hle⟩ := hthen.opened_le number rfl
    exact ⟨hpos, hthen.count_constructed ▸ hle, hthen.open_not_closed⟩
  refine ⟨later, license, timeout, began, asked, earlier, number, keyId, hhistory, hlater, hunclosed, hkeyId, hanswer,
    ?_⟩
  rw [hmarks] at hnow
  by_cases hclosed : .closed number ∈ History.marks later
  · -- of those constructed by then only that one was not closed, so another one that is open now came later
    refine .inr ⟨hclosed, ?_⟩
    intro other hother
    by_contra hle
    rw [hother] at hnow
    have hopen : .closed other ∉ History.marks earlier :=
      fun hmem => hnow.open_not_closed (List.mem_append_right _ hmem)
    have hsame := hthen.opened_of_not_closed (hnow.opened_le other rfl).1 (Nat.not_lt.mp hle) hopen
    cases hsame
    exact hnow.open_not_closed (List.mem_append_left _ hclosed)
  · obtain ⟨hpos, hle, hopen⟩ := hunclosed
    refine .inl (hnow.opened_of_not_closed hpos ?_ ?_)
    · rw [List.count_append]
      exact Nat.le_trans hle (Nat.le_add_left _ _)
    · simp [hclosed, hopen]

/-- A session with a usable key gets another native session, which nobody has asked for a status. -/
def movesOfReplacement : List Move :=
  [.begin (.call (.generate [] none)),
    .reply (.createSystem settingWithSideChannel.helper.keySystem) true,
    .reply (.construct [] none) (.ok "first"),
    .begin (.event (.keyUpdate [2])),
    .reply (.queryStatus 1 [2]) .usable,
    .begin (.event .keysUpdated),
    .begin (.call (.process none ⟨0⟩)),
    .begin (.call (.generate [] none)),
    .reply (.close 1) (),
    .reply (.construct [] none) (.ok "second")]

private theorem replaced :
    ∃ moment, Reachable settingWithSideChannel moment ∧ moment.session.state = .ready ∧ moment.session.handles = 1 ∧
      moment.session.opened = some 2 ∧ moment.history.marks = [.constructed, .keyed none, .closed 1, .keyed (some [2]),
        .answered 1 [2] .usable, .used 1, .constructed, .keyed none] :=
  ⟨_, ⟨movesOfReplacement, rfl⟩, rfl, rfl, rfl, rfl⟩

theorem ready_since_usable_key_of_closed_session :
    ∃ moment later number keyId earlier, Reachable settingWithSideChannel moment ∧ moment.session.opened = some 2 ∧
      moment.history = later ++ earlier ∧ Unclosed earlier number ∧
      lastAnswer? (History.marks earlier) = some (number, keyId, .usable) := by
  obtain ⟨moment, hreach, hready, hhandles, hopened, -⟩ := replaced
  obtain ⟨-, later, license, timeout, began, asked, earlier, number, keyId, hhistory, -, hunclosed, -, hanswer, -⟩ :=
    ready_since_usable_key hreach hready (by omega)
  have hbefore : moment.history = (later ++ [.ended ⟨.call (.process license timeout), began, asked, .ok ()⟩]) ++
      earlier := by
    rw [hhistory, List.append_assoc]
    rfl
  exact ⟨moment, _, number, keyId, earlier, hreach, hopened, hbefore, hunclosed, hanswer⟩

/-- The session is ready with a native session that has told of no key, and still is while that one is being cleared. -/
theorem ready_without_usable_key :
    (∃ moment, Reachable settingWithSideChannel moment ∧ moment.session.state = .ready ∧
      moment.session.opened = some 2 ∧ ∀ keyId status, .answered 2 keyId status ∉ moment.history.marks) ∧
    ∃ moment, Reachable settingWithSideChannel moment ∧ moment.session.state = .ready ∧
      moment.session.handles = 1 ∧ moment.session.opened = none := by
  refine ⟨?_, ?_⟩
  · obtain ⟨moment, hreach, hready, -, hopened, hmarks⟩ := replaced
    refine ⟨moment, hreach, hready, hopened, ?_⟩
    intro keyId status
    simp [hmarks]
  · exact ⟨_, ⟨movesOfReplacement ++ [.begin (.call .clear)], rfl⟩, rfl, rfl, rfl⟩

end ContentProtection.Native
