import ContentProtection.Proofs.Native.Processing

/-!
# What lasts through a key exchange

From the construction of a native session until another one is made or it is cleared. The native session that was accepted stays open as long as there are handles, and nothing forgets the key, because only whoever is making that native session can go on without having begun meanwhile. And once it is signalled that all keys were updated, the next one who processes a license need not wait for it.
-/

namespace ContentProtection.Native

open ContentProtection.Session (Fault Reply Request)

/-! ### Accepting a native session -/

/-- The end of a step that makes a native session the open one and touches no signal. -/
structure Accepted (last : Entry) (before after : Session) : Prop where
  ended : ∃ record, last = .ended record
  opened : after.opened ≠ none
  latch_eq : after.keyStatusReady = before.keyStatusReady

/-- A native session that comes back with an id is accepted. -/
def Accepts (course : List Entry) (before after : Session) : Prop :=
  ∀ last initData customData id earlier,
    course = last :: .replied (.construct initData customData) (.ok id) :: earlier → id ≠ "" →
      Accepted last before after

/-- Whether a request is made before a native session is constructed. -/
def isPreparation : Request → Bool
  | .construct _ _ => false
  | _ => true

theorem accepts_of_follows {last : Entry} {course : List Entry} {before after : Session}
    (hcourse : Follows isPreparation course) : Accepts (last :: course) before after := by
  intro last' initData customData id earlier heq
  cases hcourse _ _ _ (List.cons.inj heq).2

section

variable {α : Type} {session before : Session} {course : List Entry} {asked : List Asked}
  {post : List Entry → List Asked → Session → Session → α → Prop}

theorem accepts_preparation {program : Operation α} (hasks : Asks isPreparation program)
    (hcourse : Follows isPreparation course)
    (hnext : ∀ course asked before after value, Follows isPreparation course → post course asked before after value) :
    Proceeds Accepts (program session) course asked before post := by
  refine proceeds_of_within (fun course _ _ => Follows isPreparation course) (hasks session) hcourse ?_ ?_ ?_ ?_
  · exact fun _ _ _ _ hfollows _ => hfollows
  · exact fun _ _ _ _ _ hfollows => accepts_of_follows hfollows
  · exact fun _ _ _ _ hrequest _ => follows_replied hrequest
  · exact fun _ _ _ _ _ hfollows _ => hnext _ _ _ _ _ hfollows

theorem accepts_generate (initData : Bytes) (customData : Option Bytes) {entry : Session} :
    Proceeds Accepts (generate initData customData session) [.began (.call (.generate initData customData))] []
      session fun course asked before after _ =>
        Accepts (.ended ⟨.call (.generate initData customData), entry, asked, ()⟩ :: course) before after := by
  have hbegan : Follows isPreparation [.began (.call (.generate initData customData))] := fun _ _ _ => nofun
  refine proceeds_bind.mpr (accepts_preparation (asks_lock rfl) hbegan fun course asked before locked _ hcourse => ?_)
  refine proceeds_bind.mpr (accepts_preparation (asks_ensureSystem fun _ => rfl) hcourse ?_)
  intro course asked before ensured created hcourse
  refine proceeds_ite.mpr ⟨fun _ => ?_, fun _ => accepts_of_follows hcourse⟩
  refine proceeds_bind.mpr (accepts_preparation (asks_closeOpened fun _ => rfl) hcourse ?_)
  intro course asked before closed _ hcourse
  refine proceeds_bind.mpr (proceeds_modify.mpr (proceeds_bind.mpr (proceeds_bind.mpr (proceeds_ask.mpr
    ⟨accepts_of_follows hcourse, fun _ between made => ?_⟩))))
  cases made with
  | error status => exact fun _ _ _ _ _ => nofun
  | ok id =>
    refine proceeds_bind.mpr (proceeds_modifyGet.mpr (proceeds_ite.mpr ⟨fun hid => ?_, fun _ => ?_⟩))
    · obtain rfl : id = "" := String.isEmpty_iff.mp hid
      refine proceeds_bind.mpr (proceeds_ask.mpr ⟨?_, fun _ between _ => accepts_of_follows (follows_replied rfl)⟩)
      intro last initData customData id earlier heq hid
      cases heq
      exact absurd rfl hid
    · intro last initData customData id earlier heq _
      cases heq
      exact ⟨⟨_, rfl⟩, nofun, rfl⟩

end

def accepting : Conduct := fun activity course before after =>
  match activity with
  | .call (.generate _ _) => Accepts course before after
  | _ => True

theorem accepting_kept (activity : Activity) : accepting.KeptBy activity := by
  cases activity with
  | event fired => exact fun _ => proceeds_of_forall (fun _ _ _ => trivial) fun _ _ _ _ _ => trivial
  | call made =>
    cases made with
    | generate initData customData => exact fun _ => accepts_generate initData customData
    | _ => exact fun _ => proceeds_of_forall (fun _ _ _ => trivial) fun _ _ _ _ _ => trivial

/-! ### The open native session -/

/-- What has come of a construction, if the entry shows it. -/
def Entry.construction? : Entry → Option (Except Int String)
  | .replied (.construct _ _) made => some made
  | _ => none

/-- What has come of all constructions, latest first. -/
def History.constructions (history : History) : List (Except Int String) := history.filterMap Entry.construction?

def Entry.startsOver : Entry → Bool
  | .began activity => activity.startsOver
  | _ => false

/-- An exchange in which nobody has started over, with a native session that was accepted if it is constructed already. -/
structure Undivided (exchange : History) : Prop where
  accepted : ∀ made ∈ exchange.constructions, ∃ id, made = .ok id ∧ id ≠ ""
  not_over : ∀ entry ∈ exchange, entry.startsOver = false

theorem Undivided.of_cons {entry : Entry} {exchange : History} (hundivided : Undivided (entry :: exchange)) :
    Undivided exchange := by
  refine ⟨fun made hmade => hundivided.accepted made ?_, fun entry hentry => hundivided.not_over entry (.tail _ hentry)⟩
  rw [History.constructions, List.filterMap_cons]
  split
  · exact hmade
  · exact .tail _ hmade

/-- Who would start over waits for good, but for the one that makes the native session of the exchange; the key is not forgotten, and the native session stays open. -/
structure Ongoing (moment : Moment) (exchange : History) : Prop where
  startsOver : ∀ frame ∈ moment.frames, frame.activity.startsOver = true →
    frame.request = .waitForLock ∨ ∃ initData customData, frame.request = .construct initData customData
  not_forgotten : .keyed none ∉ exchange.marks
  opened : exchange.constructions ≠ [] → moment.session.opened ≠ none ∨ moment.session.handles = 0

section

variable {setting : Setting} {moment moment' : Moment} {move : Move} {activity : Activity} {below : List Frame}
  {first last : Entry} {exchange : History}

theorem Entry.startsOver_of_mark? {entry : Entry} (hmark : entry.mark? = some (.keyed none)) :
    (∃ initData customData, entry = .asked (.construct initData customData)) ∨
      ∃ record, entry = .ended record ∧ record.activity = .call .clear := by
  unfold Entry.mark? at hmark
  split at hmark <;> first | exact .inl ⟨_, _, rfl⟩ | exact .inr ⟨_, rfl, rfl⟩ | cases hmark

/-- In an exchange, only a step that accepts the native session is one of somebody who would start over. -/
theorem Ongoing.accepts (hongoing : Ongoing moment exchange) (hundivided : Undivided (last :: first :: exchange))
    (hstep : Moment.Step moment move moment' activity below first last)
    (hframes : ∀ frame ∈ moment.frames, frame.activity.asks frame.request = true)
    (haccepting : accepting activity moment'.history.lastCourse moment.session moment'.session)
    (hover : activity.startsOver = true) :
    (∃ initData customData, activity = .call (.generate initData customData)) ∧
      Accepted last moment.session moment'.session := by
  rw [hstep.lastCourse_eq] at haccepting
  cases hstep.starts with
  | begun =>
    have hbegan : activity.startsOver = false := hundivided.not_over (.began activity) (.tail _ (.head _))
    cases hover.symm.trans hbegan
  | replied frame reply hactivity hbefore hlock =>
    have hframe : frame ∈ moment.frames := hbefore ▸ List.mem_cons_self
    have hasks := hframes frame hframe
    obtain ⟨initData, customData, hrequest⟩ :=
      (hongoing.startsOver frame hframe (hactivity ▸ hover)).resolve_left hlock
    generalize frame.request = request at *
    subst hrequest
    rw [hactivity] at hasks
    obtain ⟨_, _, rfl⟩ := Activity.eq_generate hasks (.inr ⟨_, _, rfl⟩)
    obtain ⟨id, rfl, hid⟩ := hundivided.accepted reply (List.mem_filterMap.mpr ⟨_, .tail _ (.head _), rfl⟩)
    exact ⟨⟨_, _, rfl⟩, haccepting _ _ _ _ _ rfl hid⟩

/-- Nobody else hears of constructions. -/
theorem Moment.Step.constructions_eq (hstep : Moment.Step moment move moment' activity below first last)
    (hframes : ∀ frame ∈ moment.frames, frame.activity.asks frame.request = true)
    (hover : activity.startsOver = false) :
    History.constructions (last :: first :: exchange) = exchange.constructions := by
  have hlast : last.construction? = none := by
    cases hstep.stops <;> rfl
  have hfirst : first.construction? = none := by
    cases hstep.starts with
    | begun => rfl
    | replied frame reply hactivity hbefore =>
      have hasks := hframes frame (hbefore ▸ List.mem_cons_self)
      generalize frame.request = request at *
      cases request with
      | construct =>
        rw [hactivity] at hasks
        obtain ⟨_, _, rfl⟩ := Activity.eq_generate hasks (.inr ⟨_, _, rfl⟩)
        cases hover
      | _ => rfl
  rw [History.constructions, List.filterMap_cons_none hlast, List.filterMap_cons_none hfirst]
  rfl

/-- Whoever has a native session constructed holds the lock, so all others who would start over wait for it. -/
theorem Reachable.ongoing_at_construction {initData : Bytes} {customData : Option Bytes} {earlier : History}
    (hreach : Reachable setting moment)
    (hasked : moment.history = .asked (.construct initData customData) :: earlier) : Ongoing moment [] := by
  refine ⟨?_, nofun, fun hmade => absurd rfl hmade⟩
  obtain ⟨top, below, hframes, hrequest⟩ := hreach.asked_by _ _ hasked
  have hasks := hreach.frame_asks top (hframes ▸ List.mem_cons_self)
  rw [hrequest] at hasks
  obtain ⟨_, _, hactivity⟩ := Activity.eq_generate hasks (.inr ⟨_, _, rfl⟩)
  have hholds : top.holdsLock = true := by
    rw [Frame.holdsLock_eq (by simp [hrequest]), hactivity]
    rfl
  intro frame hframe hover
  rw [hframes] at hframe
  rcases List.mem_cons.mp hframe with rfl | hframe
  · exact .inr ⟨_, _, hrequest⟩
  · by_contra hneither
    have hfree := hreach.holdsLock_below hframes hholds frame hframe
    rw [Frame.holdsLock_eq fun hwaits => hneither (.inl hwaits)] at hfree
    cases hactivity : frame.activity with
    | event fired => simp [hactivity, Activity.startsOver] at hover
    | call made => cases made <;> simp [hactivity, Activity.startsOver, Activity.locks] at hover hfree

namespace Ongoing

theorem not_forgotten_step (hongoing : Ongoing moment exchange)
    (hstep : Moment.Step moment move moment' activity below first last)
    (hasks : ∀ request, last = .asked request → activity.asks request = true)
    (haccepts : activity.startsOver = true → (∃ initData customData, activity = .call (.generate initData customData)) ∧
      Accepted last moment.session moment'.session) : .keyed none ∉ History.marks (last :: first :: exchange) := by
  intro hforgotten
  obtain ⟨entry, hentry, hmark⟩ := List.mem_filterMap.mp hforgotten
  rcases List.mem_cons.mp hentry with rfl | hentry
  · rcases Entry.startsOver_of_mark? hmark with ⟨_, _, rfl⟩ | ⟨record, rfl, hclear⟩
    · obtain ⟨_, _, rfl⟩ := Activity.eq_generate (hasks _ rfl) (.inr ⟨_, _, rfl⟩)
      obtain ⟨-, ⟨record, hended⟩, -, -⟩ := haccepts rfl
      cases hended
    · cases hstep.stops with
      | ended _ hactivity =>
        rw [hclear] at hactivity
        subst hactivity
        obtain ⟨⟨_, _, hgenerate⟩, -⟩ := haccepts rfl
        cases hgenerate
  · rcases List.mem_cons.mp hentry with rfl | hentry
    · rcases Entry.startsOver_of_mark? hmark with ⟨_, _, rfl⟩ | ⟨record, rfl, -⟩ <;> cases hstep.starts
    · exact hongoing.not_forgotten (List.mem_filterMap.mpr ⟨entry, hentry, hmark⟩)

theorem opened_step (hongoing : Ongoing moment exchange)
    (hstep : Moment.Step moment move moment' activity below first last)
    (hframes : ∀ frame ∈ moment.frames, frame.activity.asks frame.request = true)
    (haccepts : activity.startsOver = true → Accepted last moment.session moment'.session)
    (hdwindling : dwindling activity moment'.history.lastCourse moment.session moment'.session)
    (hmade : History.constructions (last :: first :: exchange) ≠ []) :
    moment'.session.opened ≠ none ∨ moment'.session.handles = 0 := by
  by_cases hover : activity.startsOver = true
  · exact .inl (haccepts hover).opened
  · have hover' : activity.startsOver = false := by simpa using hover
    have hdwindles := hstep.dwindles hframes hover' hdwindling
    rw [hstep.constructions_eq hframes hover'] at hmade
    rcases hongoing.opened hmade with hopened | hgone
    · by_cases hleft : 0 < moment'.session.handles
      · exact .inl (hdwindles.opened_eq hleft ▸ hopened)
      · exact .inr (by omega)
    · exact .inr (hdwindles.handles_eq_zero hgone)

end Ongoing

/-- An exchange is ongoing as long as nobody starts over. -/
theorem Reachable.ongoing {initData : Bytes} {customData : Option Bytes} {earlier : History}
    (hreach : Reachable setting moment) :
    ∀ exchange, moment.history = exchange ++ .asked (.construct initData customData) :: earlier →
      Undivided exchange → Ongoing moment exchange := by
  refine hreach.induct_since (motive := fun moment exchange => Undivided exchange → Ongoing moment exchange)
    (fun activity => (accepting_kept activity).and (dwindling_kept activity)) ?_ ?_
  · exact fun moment hreach hasked _ => hreach.ongoing_at_construction hasked
  intro moment move moment' activity below first last exchange hreach _ hsince hstep _ hasks hconduct hundivided
  obtain ⟨haccepting, hdwindling⟩ := hconduct
  have hongoing : Ongoing moment exchange := hsince hundivided.of_cons.of_cons
  have haccepts := hongoing.accepts hundivided hstep hreach.frame_asks haccepting
  refine ⟨?_, hongoing.not_forgotten_step hstep hasks haccepts, ?_⟩
  · intro frame hframe hover
    rcases hstep.of_mem_frames hframe with hbelow | ⟨rfl, rfl⟩
    · exact hongoing.startsOver frame (hstep.mem_frames hbelow).1 hover
    · obtain ⟨record, hended⟩ := (haccepts hover).2.ended
      cases hended
  · exact hongoing.opened_step hstep hreach.frame_asks (fun hover => (haccepts hover).2) hdwindling

end

/-! ### Signals -/

/-- The key event that was delivered, if the entry shows one. -/
def Entry.keyEvent? : Entry → Option Event
  | .ended ⟨.event (.keyUpdate keyId), _, _, _⟩ => some (.keyUpdate keyId)
  | .ended ⟨.event .keysUpdated, _, _, _⟩ => some .keysUpdated
  | _ => none

/-- The key events in the order in which they were delivered. -/
def History.keyEvents (history : History) : List Event := (history.filterMap Entry.keyEvent?).reverse

/-- Whether a license has been processed. -/
def Entry.isProcessed : Entry → Bool
  | .ended ⟨.call (.process _ _), _, _, _⟩ => true
  | _ => false

/-- Somebody will know without waiting that all keys were updated: it is signalled, or whoever processes a license has been told and lets nobody in until the end. -/
def Signals (moment : Moment) : Prop :=
  moment.session.keyStatusReady.isSignalled = true ∨
    ∃ frame below license timeout, moment.frames = frame :: below ∧
      frame.activity = .call (.process license timeout) ∧ isQuiet frame.request = true

def notifying : Conduct := fun activity _ before after =>
  match activity with
  | .event .keysUpdated => 0 < before.handles → after.keyStatusReady.isSignalled = true
  | _ => True

theorem notifying_kept (activity : Activity) : notifying.KeptBy activity := by
  cases activity with
  | call made => exact fun _ => proceeds_of_forall (fun _ _ _ => trivial) fun _ _ _ _ _ => trivial
  | event fired =>
    cases fired with
    | keysUpdated =>
      intro session
      show Proceeds _ (deliver .keysUpdated session) _ _ _ _
      by_cases hhandle : 0 < session.handles
      · rw [deliver_of_handle _ hhandle]
        show Proceeds _ (release _) _ _ _ _
        rw [release_of_shared (Nat.succ_lt_succ hhandle)]
        exact fun _ => rfl
      · rw [deliver_of_gone _ (by omega)]
        exact fun hleft => absurd hleft hhandle
    | _ => exact fun _ => proceeds_of_forall (fun _ _ _ => trivial) fun _ _ _ _ _ => trivial

section

variable {setting : Setting} {moment moment' : Moment} {move : Move} {activity : Activity} {below : List Frame}
  {first last : Entry} {exchange : History}

/-- Whoever processes a license and lets nobody in goes on to do so, or is done. -/
theorem Moment.Step.after_quiet {frame : Frame} {rest : List Frame} {license : Option LicenseData} {timeout : Duration}
    (hstep : Moment.Step moment move moment' activity below first last) (hframes : moment.frames = frame :: rest)
    (hprocess : frame.activity = .call (.process license timeout)) (hquiet : isQuiet frame.request = true)
    (hprocessing : processing activity moment'.history.lastCourse moment.session moment'.session) :
    activity = .call (.process license timeout) ∧
      (last.isProcessed = true ∨ ∃ request, last = .asked request ∧ isQuiet request = true) := by
  rw [hstep.lastCourse_eq] at hprocessing
  cases hstep.starts with
  | begun hbelow hbegin =>
    rw [Moment.mayBegin, hframes, Bool.and_eq_true] at hbegin
    cases hquiet.symm.trans (Outline.not_isQuiet_of_admits hbegin.2)
  | replied top reply hactivity hbefore =>
    obtain ⟨rfl, rfl⟩ := List.cons.inj (hbefore.symm.trans hframes)
    rw [hprocess] at hactivity
    subst hactivity
    refine ⟨rfl, ?_⟩
    generalize top.request = request at *
    cases hprocessing with
    | feeds _ _ _ hcourse => simpa [hquiet] using hcourse _ _ _ rfl
    | waits _ hcourse => simpa [hquiet] using hcourse _ _ _ rfl
    | looks request _ hlast => exact .inr ⟨request, rfl, hlast⟩
    | fails => exact .inl rfl
    | ends => exact .inl rfl

/-- Nobody but whoever processes a license takes the signal. -/
theorem Moment.Step.signals (hstep : Moment.Step moment move moment' activity below first last)
    (hsignals : Signals moment) (hhandle : 0 < moment.session.handles) (hlast : last.isProcessed = false)
    (hsame : SameBut activity.changes moment.session moment'.session)
    (hover : activity.startsOver = true → moment'.session.keyStatusReady = moment.session.keyStatusReady)
    (hprocessing : processing activity moment'.history.lastCourse moment.session moment'.session)
    (hnotifying : notifying activity moment'.history.lastCourse moment.session moment'.session) : Signals moment' := by
  have hquiet : ∀ {license timeout request}, activity = .call (.process license timeout) → last = .asked request →
      isQuiet request = true → Signals moment' := by
    rintro license timeout request rfl rfl hquiet
    cases hstep.stops with
    | asked frame hactivity hframes => exact .inr ⟨frame, below, license, timeout, hframes, hactivity, hquiet⟩
  rcases hsignals with hsignalled | ⟨frame, rest, license, timeout, hframes, hprocess, hframe⟩
  · have hothers : .latch .keyStatusReady ∉ activity.changes → Signals moment' := by
      intro hlatch
      have hkept : moment'.session.keyStatusReady = moment.session.keyStatusReady := hsame.same (.latch _) hlatch
      exact .inl (by rw [hkept, hsignalled])
    cases activity with
    | event fired =>
      cases fired with
      | keysUpdated => exact .inl (hnotifying hhandle)
      | _ => exact hothers (by simp [Activity.changes, Event.changes])
    | call made =>
      cases made with
      | process license timeout =>
        rw [hstep.lastCourse_eq] at hprocessing
        generalize History.course 0 (first :: moment.history) = course at hprocessing
        cases hprocessing with
        | feeds _ _ _ _ hlatch => exact .inl (by rw [hlatch, hsignalled])
        | waits _ _ hfree => cases hfree.symm.trans hsignalled
        | looks _ _ hrequest => exact hquiet rfl rfl hrequest
        | fails | ends => cases hlast
      | generate | clear => exact .inl (by rw [hover rfl, hsignalled])
      | _ => exact hothers (by simp [Activity.changes, Call.changes])
  · obtain ⟨hactivity, hprocessed | ⟨request, hasked, hrequest⟩⟩ :=
      hstep.after_quiet hframes hprocess hframe hprocessing
    · cases hlast.symm.trans hprocessed
    · exact hquiet hactivity hasked hrequest

/-- Nobody waits for what is signalled. -/
theorem Moment.Step.not_signals (hstep : Moment.Step moment move moment' activity below first last) {timeout : Duration}
    (hwaits : last = .asked (.wait .keyStatusReady timeout))
    (hasks : activity.asks (.wait .keyStatusReady timeout) = true)
    (hprocessing : processing activity moment'.history.lastCourse moment.session moment'.session) :
    ¬Signals moment := by
  subst hwaits
  rintro (hsignalled | ⟨frame, rest, license, timeout', hframes, hprocess, hframe⟩)
  · obtain ⟨license, timeout', rfl⟩ : ∃ license timeout', activity = .call (.process license timeout') := by
      cases activity with
      | event fired => cases fired <;> cases hasks
      | call made => cases made <;> first | exact ⟨_, _, rfl⟩ | cases hasks
    rw [hstep.lastCourse_eq] at hprocessing
    cases hprocessing with
    | waits _ _ hfree => cases hfree.symm.trans hsignalled
    | looks _ _ hquiet => cases hquiet
  · obtain ⟨-, hprocessed | ⟨request, hasked, hrequest⟩⟩ := hstep.after_quiet hframes hprocess hframe hprocessing
    · cases hprocessed
    · cases hasked
      cases hrequest

theorem Entry.eq_of_keysUpdated {entry : Entry} (hevent : entry.keyEvent? = some .keysUpdated) :
    ∃ record, entry = .ended record ∧ record.activity = .event .keysUpdated := by
  unfold Entry.keyEvent? at hevent
  split at hevent <;> first | exact ⟨_, rfl, rfl⟩ | cases hevent

theorem History.mem_keyEvents {history : History} {event : Event} :
    event ∈ history.keyEvents ↔ ∃ entry ∈ history, entry.keyEvent? = some event := by
  rw [keyEvents, List.mem_reverse, List.mem_filterMap]

theorem Moment.Step.keyEvent?_first (hstep : Moment.Step moment move moment' activity below first last) :
    first.keyEvent? = none := by
  cases hstep.starts <;> rfl

/-- Until the first license is processed, somebody will know that all keys were updated once that was told, and nobody waits for it any more. -/
structure Notified (moment : Moment) (exchange : History) : Prop where
  signals : (∀ entry ∈ exchange, entry.isProcessed = false) → Event.keysUpdated ∈ exchange.keyEvents → Signals moment
  waited : (∀ entry ∈ exchange.tail, entry.isProcessed = false) → ∀ later timeout (before : History),
    exchange = later ++ .asked (.wait .keyStatusReady timeout) :: before → Event.keysUpdated ∉ before.keyEvents

namespace Notified

theorem signals_step (hnotified : Notified moment exchange)
    (hstep : Moment.Step moment move moment' activity below first last) (hhandle : 0 < moment.session.handles)
    (hsame : SameBut activity.changes moment.session moment'.session)
    (hover : activity.startsOver = true → moment'.session.keyStatusReady = moment.session.keyStatusReady)
    (hprocessing : processing activity moment'.history.lastCourse moment.session moment'.session)
    (hnotifying : notifying activity moment'.history.lastCourse moment.session moment'.session)
    (hnone : ∀ entry ∈ last :: first :: exchange, entry.isProcessed = false)
    (hupdated : Event.keysUpdated ∈ History.keyEvents (last :: first :: exchange)) : Signals moment' := by
  obtain ⟨entry, hentry, hevent⟩ := History.mem_keyEvents.mp hupdated
  rcases List.mem_cons.mp hentry with rfl | hentry
  · obtain ⟨record, rfl, hrecord⟩ := Entry.eq_of_keysUpdated hevent
    cases hstep.stops with
    | ended _ hactivity =>
      rw [hrecord] at hactivity
      subst hactivity
      exact .inl (hnotifying hhandle)
  · rcases List.mem_cons.mp hentry with rfl | hentry
    · rw [hstep.keyEvent?_first] at hevent
      cases hevent
    · have hsignals : Signals moment :=
        hnotified.signals (fun other hother => hnone other (.tail _ (.tail _ hother)))
          (History.mem_keyEvents.mpr ⟨entry, hentry, hevent⟩)
      exact hstep.signals hsignals hhandle (hnone last (.head _)) hsame hover hprocessing hnotifying

theorem waited_step (hnotified : Notified moment exchange)
    (hstep : Moment.Step moment move moment' activity below first last)
    (hasks : ∀ request, last = .asked request → activity.asks request = true)
    (hprocessing : processing activity moment'.history.lastCourse moment.session moment'.session)
    (hnone : ∀ entry ∈ exchange, entry.isProcessed = false) {later before : History} {timeout : Duration}
    (hexchange : last :: first :: exchange = later ++ .asked (.wait .keyStatusReady timeout) :: before) :
    Event.keysUpdated ∉ before.keyEvents := by
  intro hupdated
  cases later with
  | nil =>
    obtain ⟨hlast, rfl⟩ := List.cons.inj hexchange
    obtain ⟨entry, hentry, hevent⟩ := History.mem_keyEvents.mp hupdated
    rcases List.mem_cons.mp hentry with rfl | hentry
    · rw [hstep.keyEvent?_first] at hevent
      cases hevent
    · have hsignals : Signals moment := hnotified.signals hnone (History.mem_keyEvents.mpr ⟨entry, hentry, hevent⟩)
      exact hstep.not_signals hlast (hasks _ hlast) hprocessing hsignals
  | cons _ later =>
    obtain ⟨-, hrest⟩ := List.cons.inj hexchange
    cases later with
    | nil =>
      obtain ⟨hfirst, -⟩ := List.cons.inj hrest
      cases hstep.starts <;> cases hfirst
    | cons _ later =>
      refine hnotified.waited (fun entry hentry => hnone entry (List.mem_of_mem_tail hentry)) later timeout before ?_
        hupdated
      exact (List.cons.inj hrest).2

end Notified

/-- While there are handles, events are told. -/
theorem Reachable.notified {initData : Bytes} {customData : Option Bytes} {earlier : History}
    (hreach : Reachable setting moment) :
    ∀ exchange : History, moment.history = exchange ++ .asked (.construct initData customData) :: earlier →
      Undivided exchange → moment.session.handles = 0 ∨ Notified moment exchange := by
  refine hreach.induct_since
    (motive := fun moment exchange => Undivided exchange → moment.session.handles = 0 ∨ Notified moment exchange)
    (fun activity => ((accepting_kept activity).and (dwindling_kept activity)).and
      ((processing_kept activity).and (notifying_kept activity))) ?_ ?_
  · exact fun _ _ _ _ => .inr ⟨nofun, fun _ later _ _ hexchange => by simp at hexchange⟩
  intro moment move moment' activity below first last exchange hreach hhistory hsince hstep hsame hasks hconduct
    hundivided
  obtain ⟨⟨haccepting, hdwindling⟩, hprocessing, hnotifying⟩ := hconduct
  have hongoing : Ongoing moment exchange := hreach.ongoing exchange hhistory hundivided.of_cons.of_cons
  have hover := fun hover => (hongoing.accepts hundivided hstep hreach.frame_asks haccepting hover).2.latch_eq
  by_cases hgone : moment.session.handles = 0
  · exact .inl (hstep.gone hreach.frame_asks hsame hdwindling hgone)
  have hhandle : 0 < moment.session.handles := Nat.pos_of_ne_zero hgone
  have hnotified : Notified moment exchange := (hsince hundivided.of_cons.of_cons).resolve_left hgone
  refine .inr ⟨hnotified.signals_step hstep hhandle hsame hover hprocessing hnotifying, ?_⟩
  intro hnone later timeout before
  exact hnotified.waited_step hstep hasks hprocessing fun entry hentry => hnone entry (.tail _ hentry)

end

end ContentProtection.Native
