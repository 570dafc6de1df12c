import ContentProtection.Proofs.Native.Lifecycle
import ContentProtection.Proofs.Native.OngoingExchange

/-!
# When key updates arrive

They may arrive while the native session is being constructed, before a license is processed, while it is fed, or during a decryption that holds the lock; the status is found out at once or left open accordingly. What the exchange comes to is the same: it is what the module says of the key that was updated last.
-/

namespace ContentProtection.Native

open ContentProtection.Session (Fault Reply Request)

/-! ### The last key -/

def Event.updated? : Event → Option Bytes
  | keyUpdate keyId => some keyId
  | _ => none

/-- The id of the key that was updated last. -/
def lastUpdated? (events : List Event) : Option Bytes := (events.filterMap Event.updated?).getLast?

theorem lastUpdated?_keyEvents (history : History) :
    lastUpdated? history.keyEvents = history.findSome? fun entry => entry.keyEvent?.bind Event.updated? := by
  rw [lastUpdated?, History.keyEvents, List.filterMap_reverse, List.getLast?_reverse, List.filterMap_filterMap,
    List.head?_filterMap]

/-- The key becomes known by the delivery of a key update and in no other way. -/
theorem Entry.mark?_eq_keyed {entry : Entry} {keyId : Bytes} :
    entry.mark? = some (.keyed (some keyId)) ↔ entry.keyEvent?.bind Event.updated? = some keyId := by
  cases entry with
  | began activity => exact ⟨nofun, nofun⟩
  | asked request => cases request <;> exact ⟨nofun, nofun⟩
  | replied request reply =>
    cases request with
    | construct => cases reply <;> exact ⟨nofun, nofun⟩
    | _ => exact ⟨nofun, nofun⟩
  | ended record =>
    obtain ⟨fired | made, entry, asked, result⟩ := record
    · cases fired with
      | keyUpdate keyId => simp [mark?, keyEvent?, Event.updated?]
      | _ => exact ⟨nofun, nofun⟩
    · cases made <;> exact ⟨nofun, nofun⟩

theorem lastKey?_append {exchange earlier : History} {keyId : Bytes} (hforgotten : .keyed none ∉ exchange.marks)
    (hlast : lastUpdated? exchange.keyEvents = some keyId) :
    lastKey? (History.marks (exchange ++ earlier)) = some keyId := by
  rw [lastUpdated?_keyEvents] at hlast
  induction exchange with
  | nil => cases hlast
  | cons entry exchange ih =>
    rw [List.findSome?_cons] at hlast
    rw [History.marks, List.filterMap_cons] at hforgotten
    rw [List.cons_append, History.marks, List.filterMap_cons]
    cases hupdated : entry.keyEvent?.bind Event.updated? with
    | some updated =>
      rw [hupdated] at hlast
      cases hlast
      rw [Entry.mark?_eq_keyed.mpr hupdated]
      rfl
    | none =>
      rw [hupdated] at hlast
      cases hmark : entry.mark? with
      | none =>
        rw [hmark] at hforgotten
        exact ih hforgotten hlast
      | some mark =>
        rw [hmark] at hforgotten
        have hrest : lastKey? (History.marks (exchange ++ earlier)) = some keyId :=
          ih (fun hmem => hforgotten (.tail _ hmem)) hlast
        cases mark with
        | keyed key =>
          cases key with
          | none => exact absurd (.head _) hforgotten
          | some key => cases hupdated.symm.trans (Entry.mark?_eq_keyed.mp hmark)
        | _ => exact hrest

/-- The last answer was given. -/
theorem replied_of_lastAnswer? {history : History} {number : Nat} {keyId : Bytes} {status : KeyStatus}
    (hanswer : lastAnswer? history.marks = some (number, keyId, status)) :
    .replied (.queryStatus number keyId) status ∈ history := by
  have hmarked : .answered number keyId status ∈ history.marks := by
    generalize history.marks = marks at hanswer
    induction marks with
    | nil => cases hanswer
    | cons mark marks ih =>
      cases mark with
      | answered =>
        cases hanswer
        exact .head _
      | _ => exact .tail _ (ih hanswer)
  obtain ⟨entry, hentry, hmark⟩ := List.mem_filterMap.mp hmarked
  unfold Entry.mark? at hmark
  split at hmark <;> cases hmark
  exact hentry

/-! ### What the exchange comes to -/

theorem Decides.eq_outcome {status : Option KeyStatus} {result : Except Fault Unit} (hdecides : Decides status result) :
    result = outcome status := by
  cases hdecides with
  | unusable status => cases status <;> first | rfl | contradiction
  | _ => rfl

theorem isOk_outcome (status : KeyStatus) : (outcome (some status)).isOk = decide (status = .usable) := by
  cases status <;> rfl

theorem Entry.isProcessed_of_fails {entry : Entry} (hprocessed : entry.isProcessed = false) :
    entry.failsByHardwareError = false := by
  cases entry with
  | ended record =>
    obtain ⟨fired | made, entry, asked, result⟩ := record
    · rfl
    · cases made <;> first | rfl | cases hprocessed
  | _ => rfl

variable {setting : Setting} {moment : Moment} {initData : Bytes} {customData : Option Bytes}
  {exchange earlier : History} {status : Bytes → KeyStatus} {keyId : Bytes}

/-- A license that is processed in an exchange is judged by what the module says of the key that was updated last. -/
theorem Reachable.judged_by_last_update {license : Option LicenseData} {timeout : Duration} {entry : Session}
    {asked : List Asked} {result : Except Fault Unit} {before : History} (hreach : Reachable setting moment)
    (hhistory : moment.history = exchange ++ .asked (.construct initData customData) :: earlier)
    (hundivided : Undivided exchange) (hmade : exchange.constructions ≠ [])
    (hstatus : ∀ number keyId answer, .replied (.queryStatus number keyId) answer ∈ moment.history →
      answer = status keyId)
    (hlast : lastUpdated? exchange.keyEvents = some keyId) (hkeyId : keyId ≠ [])
    (hended : moment.history = .ended ⟨.call (.process license timeout), entry, asked, result⟩ :: before) :
    result = outcome (some (status keyId)) ∧
      moment.session.state = if status keyId = .usable then .ready else .error := by
  obtain ⟨⟨⟨found, hresolved, hdecides, -⟩, hstate, -⟩, -⟩ := hreach.fits.report _ _ hended
  have hmarks : History.marks before = moment.history.marks := by
    rw [hended]
    rfl
  have hongoing : Ongoing moment exchange := hreach.ongoing exchange hhistory hundivided
  have hhandle := hreach.handle_at_end hended nofun
  have hopened : moment.session.opened ≠ none := (hongoing.opened hmade).resolve_right (by omega)
  have hkey : lastKey? moment.history.marks = some keyId := by
    rw [hhistory]
    exact lastKey?_append hongoing.not_forgotten hlast
  rw [hmarks] at hresolved
  have hfound : found = some (status keyId) := by
    cases found with
    | none =>
      rcases hresolved with hnone | hnone
      · exact absurd hnone hopened
      · rw [hkey] at hnone
        exact absurd hnone hkeyId
    | some told =>
      obtain ⟨number, _, -, hsame, hanswer⟩ := hresolved
      cases hkey.symm.trans hsame
      rw [hstatus _ _ _ (replied_of_lastAnswer? hanswer)]
  subst hfound
  obtain rfl := hdecides.eq_outcome
  refine ⟨rfl, ?_⟩
  rw [hstate, isOk_outcome]
  simp

/-- As often as errors of the hardware are reported in an exchange, licenses have come to nothing by one. -/
theorem Reachable.hardwareErrors_in_exchange {record : Record} {before : History} (hreach : Reachable setting moment)
    (hhistory : moment.history = exchange ++ .asked (.construct initData customData) :: earlier)
    (hended : exchange = .ended record :: before) :
    exchange.countP Entry.reportsHardwareError = exchange.countP Entry.failsByHardwareError := by
  have hafter := hreach.hardwareErrors_balanced (hreach.loud_of_ended record _ (by rw [hhistory, hended]; rfl))
  obtain ⟨asking, hasking, hasked⟩ := hreach.at_asked exchange hhistory
  have hbefore := hasking.hardwareErrors_balanced (hasking.loud_of_asked hasked rfl)
  rw [hhistory, List.countP_append, List.countP_append, ← hasked] at hafter
  omega

/-- An entry that shows neither a construction nor a key event, and nobody who starts over. -/
def Entry.GoesOn (entry : Entry) : Prop :=
  entry.construction? = none ∧ entry.keyEvent? = none ∧ entry.startsOver = false

/-- While a license is processed with nobody else in between, no key events come and nothing is constructed. -/
theorem Activity.Exchanges.goesOn {license : Option LicenseData} {timeout : Duration}
    {answer : (request : Request) → Reply request} {entry : Entry}
    (hexchanges : (Activity.call (.process license timeout)).Exchanges answer entry) : entry.GoesOn := by
  obtain ⟨request, hasks, rfl | rfl⟩ := hexchanges
  · exact ⟨rfl, rfl, rfl⟩
  · refine ⟨?_, rfl, rfl⟩
    cases request <;> first | rfl | cases hasks

section

variable {later : History}

theorem History.constructions_of_goesOn (hlater : ∀ entry ∈ later, entry.GoesOn) :
    History.constructions (later ++ exchange) = exchange.constructions := by
  have hnone : later.filterMap Entry.construction? = [] :=
    List.filterMap_eq_nil_iff.mpr fun entry hentry => (hlater entry hentry).1
  rw [constructions, List.filterMap_append, hnone, List.nil_append, constructions]

theorem History.keyEvents_of_goesOn (hlater : ∀ entry ∈ later, entry.GoesOn) :
    History.keyEvents (later ++ exchange) = exchange.keyEvents := by
  have hnone : later.filterMap Entry.keyEvent? = [] :=
    List.filterMap_eq_nil_iff.mpr fun entry hentry => (hlater entry hentry).2.1
  rw [keyEvents, List.filterMap_append, hnone, List.nil_append, keyEvents]

theorem Undivided.of_goesOn (hundivided : Undivided exchange) (hlater : ∀ entry ∈ later, entry.GoesOn) :
    Undivided (later ++ exchange) := by
  refine ⟨fun made hmade => hundivided.accepted made ?_, fun entry hentry => ?_⟩
  · rwa [History.constructions_of_goesOn hlater] at hmade
  · rcases List.mem_append.mp hentry with hentry | hentry
    · exact (hlater entry hentry).2.2
    · exact hundivided.not_over entry hentry

end

/-- Who processes a license with nobody else in between is judged by what the module says of the key that was updated last. -/
theorem Reachable.judged_alone {frame : Frame} {license : Option LicenseData} {timeout : Duration}
    {answer : (request : Request) → Reply request} (hreach : Reachable setting moment)
    (hhistory : moment.history = exchange ++ .asked (.construct initData customData) :: earlier)
    (hundivided : Undivided exchange) (hmade : exchange.constructions ≠ [])
    (hstatus : ∀ number keyId answer, .replied (.queryStatus number keyId) answer ∈ moment.history →
      answer = status keyId)
    (hlast : lastUpdated? exchange.keyEvents = some keyId) (hkeyId : keyId ≠ []) (hframes : moment.frames = [frame])
    (hprocess : frame.activity = .call (.process license timeout))
    (hanswer : ∀ number keyId, answer (.queryStatus number keyId) = status keyId) :
    ∃ moves moment' asked before, moment.run? moves = some moment' ∧
      (∀ move ∈ moves, ∃ request, move = .reply request (answer request)) ∧
      moment'.history = .ended ⟨.call (.process license timeout), frame.entry, asked,
        outcome (some (status keyId))⟩ :: before := by
  obtain ⟨moves, moment', hrun, hanswers, -, asked, result, course, hended, hcourse⟩ := hreach.finishes answer hframes
  obtain ⟨activity, entry, asked', request, resume⟩ := frame
  cases hprocess
  have hlater : ∀ other ∈ Entry.ended ⟨.call (.process license timeout), entry, asked, result⟩ :: course,
      other.GoesOn := by
    intro other hother
    rcases List.mem_cons.mp hother with rfl | hother
    · exact ⟨rfl, rfl, rfl⟩
    · exact (hcourse other hother).goesOn
  have hhistory' : moment'.history =
      (.ended ⟨.call (.process license timeout), entry, asked, result⟩ :: course ++ exchange) ++
        .asked (.construct initData customData) :: earlier := by
    rw [hended, hhistory, List.append_assoc]
  have hstatus' : ∀ number keyId answer, .replied (.queryStatus number keyId) answer ∈ moment'.history →
      answer = status keyId := by
    intro number keyId told htold
    rw [hended] at htold
    rcases List.mem_append.mp htold with htold | htold
    · rcases List.mem_cons.mp htold with hended | htold
      · cases hended
      · obtain ⟨_, -, hother | hother⟩ := hcourse _ htold <;> cases hother
        exact hanswer number keyId
    · exact hstatus number keyId told htold
  have hreach' : Reachable setting moment' := hreach.run hrun
  obtain ⟨rfl, -⟩ := hreach'.judged_by_last_update hhistory' (hundivided.of_goesOn hlater)
    (by rwa [History.constructions_of_goesOn hlater]) hstatus' (by rwa [History.keyEvents_of_goesOn hlater]) hkeyId
    hended
  exact ⟨moves, moment', asked, _, hrun, hanswers, hended⟩

/-- What a key exchange comes to does not depend on when key updates arrive. At any moment of a run, suppose that a native session was accepted and nobody has started over since, that the module always says the same of a key, and that certain key events were delivered meanwhile, wherever in between. When the first license has just been processed, the status of the key that was updated last decides its result, the state and whether an error of the hardware was reported, which is once if at all; and nobody has waited after all keys were updated. Whoever processes a license with nobody else in between gets to that end. -/
theorem exchange_decided_by_last_update {events : List Event} (hreach : Reachable setting moment)
    (hhistory : moment.history = exchange ++ .asked (.construct initData customData) :: earlier)
    (hundivided : Undivided exchange) (hmade : exchange.constructions ≠ [])
    (hstatus : ∀ number keyId answer, .replied (.queryStatus number keyId) answer ∈ moment.history →
      answer = status keyId)
    (hevents : exchange.keyEvents = events) (hlast : lastUpdated? events = some keyId) (hkeyId : keyId ≠ []) :
    (∀ license timeout entry asked result (before : History),
      exchange = .ended ⟨.call (.process license timeout), entry, asked, result⟩ :: before →
      (∀ entry ∈ before, entry.isProcessed = false) →
        result = outcome (some (status keyId)) ∧
        moment.session.state = (if status keyId = .usable then .ready else .error) ∧
        exchange.countP Entry.reportsHardwareError = (if status keyId = .hardwareError then 1 else 0) ∧
        ∀ later timeout (earlier : History), exchange = later ++ .asked (.wait .keyStatusReady timeout) :: earlier →
          Event.keysUpdated ∉ earlier.keyEvents) ∧
    ∀ frame license timeout (answer : (request : Request) → Reply request), moment.frames = [frame] →
      frame.activity = .call (.process license timeout) →
      (∀ number keyId, answer (.queryStatus number keyId) = status keyId) →
        ∃ moves moment' asked before, moment.run? moves = some moment' ∧
          (∀ move ∈ moves, ∃ request, move = .reply request (answer request)) ∧
          moment'.history = .ended ⟨.call (.process license timeout), frame.entry, asked,
            outcome (some (status keyId))⟩ :: before := by
  subst hevents
  refine ⟨?_, ?_⟩
  · intro license timeout entry asked result before hexchange hfirst
    have hended : moment.history = .ended ⟨.call (.process license timeout), entry, asked, result⟩ ::
        (before ++ .asked (.construct initData customData) :: earlier) := by
      rw [hhistory, hexchange]
      rfl
    obtain ⟨hresult, hstate⟩ :=
      hreach.judged_by_last_update hhistory hundivided hmade hstatus hlast hkeyId hended
    refine ⟨hresult, hstate, ?_, ?_⟩
    · have hbefore : before.countP Entry.failsByHardwareError = 0 :=
        List.countP_eq_zero.mpr fun entry hentry => by simp [Entry.isProcessed_of_fails (hfirst entry hentry)]
      rw [hreach.hardwareErrors_in_exchange hhistory hexchange, hexchange, List.countP_cons, hbefore,
        Entry.failsByHardwareError_eq license timeout entry asked result, hresult]
      simp [outcome_eq_hardwareError]
    · have hhandle := hreach.handle_at_end hended nofun
      have hnotified := (hreach.notified exchange hhistory hundivided).resolve_left (by omega)
      exact hnotified.waited (by rw [hexchange]; exact hfirst)
  · intro frame license timeout answer hframes hprocess hanswer
    exact hreach.judged_alone hhistory hundivided hmade hstatus hlast hkeyId hframes hprocess hanswer

/-- One key update during the construction, one after it and one during a decryption; the rest while the license is fed. -/
def movesOfKeyUpdates : List Move :=
  [.begin (.call (.generate [] none)),
    .reply (.createSystem settingWithSideChannel.helper.keySystem) true,
    .begin (.event (.keyUpdate [1])),
    .reply (.construct [] none) (.ok "first"),
    .begin (.event (.keyUpdate [2])),
    .reply (.queryStatus 1 [2]) .usable,
    .begin (.call (.decrypt {} [5])),
    .begin (.event (.keyUpdate [3])),
    .reply (.decrypt 1 {} [5]) (.ok (), [6]),
    .begin (.call (.process (some ⟨[7]⟩) ⟨1000000⟩)),
    .begin (.event .keysUpdated),
    .reply (.update 1 [7]) (.ok ()),
    .reply (.queryStatus 1 [3]) .hardwareError,
    .reply (.hardwareError settingWithSideChannel.helper.keySystem) ()]

theorem exchange_decided_by_last_update_under_lock :
    ∃ (moment : Moment) (exchange earlier : History), Reachable settingWithSideChannel moment ∧
      moment.history = exchange ++ .asked (.construct [] none) :: earlier ∧
      exchange.keyEvents = [.keyUpdate [1], .keyUpdate [2], .keyUpdate [3], .keysUpdated] ∧
      (∃ license timeout entry asked before, exchange = .ended ⟨.call (.process license timeout), entry, asked,
        .error (.status KeyStatus.hardwareError.code)⟩ :: before) ∧
      moment.session.state = .error ∧ exchange.countP Entry.reportsHardwareError = 1 := by
  have hrun : ∃ moment license timeout entry asked result rest earlier,
      (Moment.initial settingWithSideChannel).run? movesOfKeyUpdates = some moment ∧
      moment.history = .ended ⟨.call (.process license timeout), entry, asked, result⟩ :: rest ∧
      rest.drop 23 = .asked (.construct [] none) :: earlier ∧
      History.constructions (rest.take 23) = [.ok "first"] ∧ (rest.take 23).any Entry.startsOver = false ∧
      (rest.take 23).any Entry.isProcessed = false ∧
      History.keyEvents (rest.take 23) = [.keyUpdate [1], .keyUpdate [2], .keyUpdate [3], .keysUpdated] ∧
      History.marks rest = [.answered 1 [3] .hardwareError, .used 1, .used 1, .keyed (some [3]), .used 1,
        .keyed (some [2]), .answered 1 [2] .usable, .used 1, .constructed, .keyed (some [1]), .keyed none] :=
    ⟨_, _, _, _, _, _, _, _, rfl, rfl, rfl, rfl, rfl, rfl, rfl, rfl⟩
  obtain ⟨moment, license, timeout, entry, asked, result, rest, earlier, hrun, hended, hasked, hmade, hover, hfirst,
    hevents, hmarks⟩ := hrun
  have hreach : Reachable settingWithSideChannel moment := ⟨_, hrun⟩
  let exchange : History := .ended ⟨.call (.process license timeout), entry, asked, result⟩ :: rest.take 23
  have hhistory : moment.history = exchange ++ .asked (.construct [] none) :: earlier := by
    rw [← hasked, List.cons_append, List.take_append_drop, hended]
  have hmade' : exchange.constructions = [.ok "first"] := hmade
  have hevents' : exchange.keyEvents = [.keyUpdate [1], .keyUpdate [2], .keyUpdate [3], .keysUpdated] := hevents
  have hundivided : Undivided exchange := by
    refine ⟨fun made hmem => ⟨"first", ?_, by decide⟩, fun other hother => ?_⟩
    · rw [hmade'] at hmem
      exact List.mem_singleton.mp hmem
    · rcases List.mem_cons.mp hother with rfl | hother
      · rfl
      · exact Bool.eq_false_iff.mpr (List.any_eq_false.mp hover other hother)
  let status : Bytes → KeyStatus := fun keyId => if keyId = [3] then .hardwareError else .usable
  have hstatus : ∀ number keyId (answer : KeyStatus),
      .replied (.queryStatus number keyId) answer ∈ moment.history → answer = status keyId := by
    intro number keyId answer hreplied
    have hmarked : .answered number keyId answer ∈ moment.history.marks :=
      List.mem_filterMap.mpr ⟨_, hreplied, rfl⟩
    rw [hended] at hmarked
    have hmarked' : .answered number keyId answer ∈ History.marks rest := hmarked
    rw [hmarks] at hmarked'
    simp only [List.mem_cons, Mark.answered.injEq, reduceCtorEq, false_or, or_false, List.not_mem_nil] at hmarked'
    rcases hmarked' with ⟨-, rfl, rfl⟩ | ⟨-, rfl, rfl⟩ <;> rfl
  obtain ⟨hfirst', -⟩ := exchange_decided_by_last_update hreach hhistory hundivided (by simp [hmade']) hstatus hevents'
    rfl (by decide)
  obtain ⟨hresult, hstate, hcount, -⟩ := hfirst' license timeout entry asked result _ rfl
    fun other hother => Bool.eq_false_iff.mpr (List.any_eq_false.mp hfirst other hother)
  subst hresult
  exact ⟨moment, exchange, earlier, hreach, hhistory, hevents', ⟨license, timeout, entry, asked, _, rfl⟩, hstate,
    hcount⟩

end ContentProtection.Native
