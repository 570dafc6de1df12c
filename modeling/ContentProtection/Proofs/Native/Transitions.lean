import ContentProtection.Proofs.Native.Lifecycle
import ContentProtection.Proofs.Native.Requests
import ContentProtection.Proofs.Native.Telling

/-!
# How the state changes

The state is set by making a native session that fails, by key requests, by processing licenses and by clearing, each at certain steps of its course, and by nothing else. `Turns` lists these steps with the state that each one sets. Which steps the history shows as such is known from the chronicle; what is left is the course of making a native session, where the reason for a failure comes just before its end.
-/

namespace ContentProtection.Native

open ContentProtection.Session (Fault KeyRequest Request)

/-! ### Steps that set the state -/

/-- A step of an activity, at the head of its course, that sets the state. -/
inductive Turns : Activity → List Entry → KeyState → Prop
  | systemMissing {initData : Bytes} {customData : Option Bytes} (record : Record) (keySystem : String)
    (course : List Entry) :
    Turns (.call (.generate initData customData)) (.ended record :: .replied (.createSystem keySystem) false :: course)
      .error
  | constructionFailed {initData : Bytes} {customData : Option Bytes} (record : Record) (status : Int)
    (course : List Entry) :
    Turns (.call (.generate initData customData))
      (.ended record :: .replied (.construct initData customData) (.error status) :: course) .error
  /-- The native session that came back without an id is closed before the state is set. -/
  | sessionRefused {initData : Bytes} {customData : Option Bytes} (record : Record) (number : Nat)
    (course : List Entry) :
    Turns (.call (.generate initData customData))
      (.ended record :: .replied (.close number) () :: .asked (.close number) ::
        .replied (.construct initData customData) (.ok "") :: course) .emptySessionId
  | requestWaits (timeout : Duration) (request : Request) :
    Turns (.call (.keyRequest timeout)) [.asked request, .began (.call (.keyRequest timeout))] .error
  | requestRefused (timeout : Duration) (entry : Session) (asked : List Asked) :
    Turns (.call (.keyRequest timeout))
      [.ended ⟨.call (.keyRequest timeout), entry, asked, none⟩, .began (.call (.keyRequest timeout))] .error
  | requestHandedOut (timeout : Duration) (entry : Session) (asked : List Asked) (request : KeyRequest)
    (course : List Entry) :
    Turns (.call (.keyRequest timeout))
      (.ended ⟨.call (.keyRequest timeout), entry, asked, some request⟩ :: course) .pending
  /-- The state is set before the error is reported. -/
  | hardwareReported (license : Option LicenseData) (timeout : Duration) (keySystem : String) (course : List Entry) :
    Turns (.call (.process license timeout)) (.asked (.hardwareError keySystem) :: course) .error
  | licenseFailed (license : Option LicenseData) (timeout : Duration) (entry : Session) (asked : List Asked)
    (fault : Fault) (course : List Entry) :
    Turns (.call (.process license timeout))
      (.ended ⟨.call (.process license timeout), entry, asked, .error fault⟩ :: course) .error
  | licenseAccepted (license : Option LicenseData) (timeout : Duration) (entry : Session) (asked : List Asked)
    (course : List Entry) :
    Turns (.call (.process license timeout))
      (.ended ⟨.call (.process license timeout), entry, asked, .ok ()⟩ :: course) .ready
  | cleared (record : Record) (course : List Entry) : Turns (.call .clear) (.ended record :: course) .init

theorem Turns.unique {activity : Activity} {course : List Entry} {state state' : KeyState}
    (hturns : Turns activity course state) (hturns' : Turns activity course state') : state = state' := by
  cases hturns <;> cases hturns' <;> rfl

theorem Turns.iff {activity : Activity} {course : List Entry} {state state' : KeyState}
    (hturns : Turns activity course state) : Turns activity course state' ↔ some state = some state' := by
  refine ⟨fun hturns' => congrArg some (hturns.unique hturns'), fun hstate => ?_⟩
  cases hstate
  exact hturns

/-! ### Making a native session -/

/-- The steps of making a native session. What comes before a request shows no state; at the end, the reason is there if it has failed. -/
inductive Generates (initData : Bytes) (customData : Option Bytes) : List Entry → Prop
  | asks (request : Request) (course : List Entry) (hcourse : ∀ entry ∈ course.head?, entry.state? = none) :
    Generates initData customData (.asked request :: course)
  | systemMissing (entry : Session) (asked : List Asked) (keySystem : String) (course : List Entry)
    (hasked : isRefused asked = false) :
    Generates initData customData (.ended ⟨.call (.generate initData customData), entry, asked, ()⟩ ::
      .replied (.createSystem keySystem) false :: course)
  | constructionFailed (entry : Session) (asked : List Asked) (status : Int) (course : List Entry)
    (hasked : isRefused asked = false) :
    Generates initData customData (.ended ⟨.call (.generate initData customData), entry, asked, ()⟩ ::
      .replied (.construct initData customData) (.error status) :: course)
  | sessionRefused (entry : Session) (asked : List Asked) (number : Nat) (course : List Entry)
    (hasked : isRefused asked = true) :
    Generates initData customData (.ended ⟨.call (.generate initData customData), entry, asked, ()⟩ ::
      .replied (.close number) () :: .asked (.close number) :: .replied (.construct initData customData) (.ok "") ::
        course)
  | constructed (entry : Session) (asked : List Asked) (id : String) (course : List Entry)
    (hasked : isRefused asked = false) :
    Generates initData customData (.ended ⟨.call (.generate initData customData), entry, asked, ()⟩ ::
      .replied (.construct initData customData) (.ok id) :: course)

section

variable {initData : Bytes} {customData : Option Bytes} {entry before session : Session} {course : List Entry}
  {asked : List Asked}

theorem generates_construct (hcourse : ∀ entry ∈ course.head?, entry.state? = none) :
    Proceeds (fun course _ _ => Generates initData customData course)
      ((do construct initData customData; unlock : Operation Unit) session) course asked before
      fun course asked _ _ _ => Generates initData customData
        (.ended ⟨.call (.generate initData customData), entry, asked, ()⟩ :: course) := by
  refine proceeds_bind.mpr (proceeds_bind.mpr (proceeds_ask.mpr ⟨.asks _ _ hcourse, fun _ between made => ?_⟩))
  cases made with
  | error status => exact .constructionFailed entry _ status _ rfl
  | ok id =>
    refine proceeds_bind.mpr (proceeds_modifyGet.mpr (proceeds_ite.mpr ⟨fun hid => ?_, fun _ => ?_⟩))
    · obtain rfl : id = "" := String.isEmpty_iff.mp hid
      refine proceeds_bind.mpr (proceeds_ask.mpr ⟨.asks _ _ (by simp [Entry.state?]), fun _ between reply => ?_⟩)
      exact .sessionRefused entry _ _ _ rfl
    · exact .constructed entry _ id _ rfl

theorem generates_generate (initData : Bytes) (customData : Option Bytes) :
    Proceeds (fun course _ _ => Generates initData customData course) (generate initData customData session)
      [.began (.call (.generate initData customData))] [] session fun course asked _ _ _ =>
        Generates initData customData
          (.ended ⟨.call (.generate initData customData), session, asked, ()⟩ :: course) := by
  -- once there is a system, nothing in the course so far shows a state
  have hrest : ∀ (after before : Session) (asked : List Asked) (course : List Entry),
      (∀ entry ∈ course.head?, entry.state? = none) →
      Proceeds (fun course _ _ => Generates initData customData course)
        ((do closeOpened; modify Session.forgetExchange; construct initData customData; unlock : Operation Unit) after)
        course asked before fun course asked _ _ _ =>
          Generates initData customData
            (.ended ⟨.call (.generate initData customData), session, asked, ()⟩ :: course) := by
    intro after before asked course hcourse
    refine proceeds_bind.mpr (proceeds_bind.mpr (proceeds_get.mpr ?_))
    cases after.opened with
    | none =>
      refine proceeds_bind.mpr (proceeds_modify.mpr ?_)
      exact generates_construct hcourse
    | some number =>
      refine proceeds_bind.mpr (proceeds_modify.mpr (proceeds_ask.mpr ⟨.asks _ _ hcourse, fun _ between reply => ?_⟩))
      refine proceeds_bind.mpr (proceeds_modify.mpr ?_)
      exact generates_construct (by simp [Entry.state?])
  have hbegan : ∀ entry ∈ [Entry.began (.call (.generate initData customData))].head?, entry.state? = none := by
    simp [Entry.state?]
  refine proceeds_bind.mpr (proceeds_bind.mpr (proceeds_bind.mpr (proceeds_get.mpr
    (proceeds_ite.mpr ⟨fun _ => ⟨.asks _ _ hbegan, fun hlock => absurd rfl hlock⟩, fun _ => ?_⟩))))
  refine proceeds_pure.mpr (proceeds_modify.mpr ?_)
  refine proceeds_bind.mpr (proceeds_bind.mpr (proceeds_get.mpr
    (proceeds_ite.mpr ⟨fun _ => ?_, fun _ => ?_⟩)))
  · exact hrest _ _ _ _ hbegan
  · refine proceeds_bind.mpr (proceeds_get.mpr (proceeds_bind.mpr (proceeds_ask.mpr
      ⟨.asks _ _ hbegan, fun _ between created => ?_⟩)))
    cases created with
    | true => exact hrest _ _ _ _ (by simp [Entry.state?])
    | false => exact .systemMissing session _ _ _ rfl

end

/-! ### What a step shows of the state -/

section

variable {activity : Activity} {request : Request}

/-- Only making a native session hears of failures that set the state. -/
theorem state?_replied (hasks : activity.asks request = true)
    (hother : ∀ initData customData, activity ≠ .call (.generate initData customData))
    (reply : ContentProtection.Session.Reply request) : (Entry.replied request reply).state? = none := by
  cases request with
  | createSystem keySystem =>
    obtain ⟨initData, customData, hactivity⟩ := Activity.eq_generate hasks (.inl ⟨_, rfl⟩)
    exact absurd hactivity (hother initData customData)
  | construct initData customData =>
    obtain ⟨initData, customData, hactivity⟩ := Activity.eq_generate hasks (.inr ⟨_, _, rfl⟩)
    exact absurd hactivity (hother initData customData)
  | _ => rfl

/-- Only processing a license reports an error of the hardware. -/
theorem state?_asked (hasks : activity.asks request = true)
    (hother : ∀ license timeout, activity ≠ .call (.process license timeout)) :
    (Entry.asked request).state? = none := by
  cases request with
  | hardwareError keySystem =>
    obtain ⟨license, timeout, hactivity⟩ := Activity.eq_process hasks
    exact absurd hactivity (hother license timeout)
  | _ => rfl

theorem state?_began (hother : ∀ timeout, activity ≠ .call (.keyRequest timeout)) :
    (Entry.began activity).state? = none := by
  cases activity with
  | event fired => rfl
  | call made => cases made <;> first | rfl | exact absurd rfl (hother _)

end

section

variable {setting : Setting} {moment moment' : Moment} {move : Move} {activity : Activity} {below : List Frame}
  {first last : Entry}

/-- A step begins without showing a state, except that of making a native session and of a key request. -/
theorem Moment.Step.state?_first (hstep : Moment.Step moment move moment' activity below first last)
    (hframes : ∀ frame ∈ moment.frames, frame.activity.asks frame.request = true)
    (hgenerate : ∀ initData customData, activity ≠ .call (.generate initData customData))
    (hrequest : ∀ timeout, activity ≠ .call (.keyRequest timeout)) : first.state? = none := by
  cases hstep.starts with
  | begun => exact state?_began hrequest
  | replied frame reply hactivity hbefore =>
    have hframe := hframes frame (hbefore ▸ List.mem_cons_self)
    rw [hactivity] at hframe
    exact state?_replied hframe hgenerate reply

theorem Moment.Step.turns_generate {initData : Bytes} {customData : Option Bytes}
    (hstep : Moment.Step moment move moment' (.call (.generate initData customData)) below first last)
    (hasks : ∀ request, last = .asked request →
      (Activity.call (.generate initData customData)).asks request = true)
    (hgenerates : Generates initData customData (last :: History.course 0 (first :: moment.history)))
    (state : KeyState) :
    Turns (.call (.generate initData customData)) (last :: History.course 0 (first :: moment.history)) state ↔
      last.state?.or first.state? = some state := by
  have hhead : (History.course 0 (first :: moment.history)).head? = some first := by
    cases hstep.starts <;> rfl
  generalize History.course 0 (first :: moment.history) = course at hgenerates hhead
  cases hgenerates with
  | asks request course hcourse =>
    rw [state?_asked (hasks request rfl) (by simp), Option.none_or, hcourse first hhead]
    exact ⟨nofun, nofun⟩
  | systemMissing entry asked keySystem course hasked =>
    cases hhead
    have hshown : (Entry.ended ⟨.call (.generate initData customData), entry, asked, ()⟩).state? = none :=
      if_neg (by simp [hasked])
    rw [hshown]
    exact (Turns.systemMissing ..).iff
  | constructionFailed entry asked status course hasked =>
    cases hhead
    have hshown : (Entry.ended ⟨.call (.generate initData customData), entry, asked, ()⟩).state? = none :=
      if_neg (by simp [hasked])
    rw [hshown]
    exact (Turns.constructionFailed ..).iff
  | sessionRefused entry asked number course hasked =>
    have hshown : (Entry.ended ⟨.call (.generate initData customData), entry, asked, ()⟩).state? =
        some .emptySessionId :=
      if_pos hasked
    rw [hshown]
    exact (Turns.sessionRefused ..).iff
  | constructed entry asked id course hasked =>
    cases hhead
    have hshown : (Entry.ended ⟨.call (.generate initData customData), entry, asked, ()⟩).state? = none :=
      if_neg (by simp [hasked])
    rw [hshown]
    exact ⟨nofun, nofun⟩

theorem Moment.Step.turns_keyRequest {timeout : Duration}
    (hstep : Moment.Step moment move moment' (.call (.keyRequest timeout)) below first last)
    (hframes : ∀ frame ∈ moment.frames, frame.activity.asks frame.request = true)
    (hasks : ∀ request, last = .asked request → (Activity.call (.keyRequest timeout)).asks request = true)
    (state : KeyState) :
    Turns (.call (.keyRequest timeout)) (last :: History.course 0 (first :: moment.history)) state ↔
      last.state?.or first.state? = some state := by
  have hlast : (∃ entry asked result, last = .ended ⟨.call (.keyRequest timeout), entry, asked, result⟩) ∨
      ∃ request, last = .asked request ∧ (Entry.asked request).state? = none := by
    cases hstep.stops with
    | ended record hrecord =>
      obtain ⟨activity, entry, asked, result⟩ := record
      cases hrecord
      exact .inl ⟨_, _, _, rfl⟩
    | asked frame => exact .inr ⟨_, rfl, state?_asked (hasks _ rfl) (by simp)⟩
  cases hstep.starts with
  | begun =>
    -- the state is set before anything else, and once more when a request is handed out
    rcases hlast with ⟨entry, asked, _ | request, rfl⟩ | ⟨request, rfl, hquiet⟩
    · exact (Turns.requestRefused ..).iff
    · exact (Turns.requestHandedOut ..).iff
    · rw [hquiet]
      exact (Turns.requestWaits ..).iff
  | replied frame reply hactivity hbefore =>
    have hframe := hframes frame (hbefore ▸ List.mem_cons_self)
    rw [hactivity] at hframe
    rw [state?_replied hframe (by simp) reply, Option.or_none]
    rcases hlast with ⟨entry, asked, _ | request, rfl⟩ | ⟨request, rfl, hquiet⟩
    · exact ⟨nofun, nofun⟩
    · exact (Turns.requestHandedOut ..).iff
    · rw [hquiet]
      exact ⟨nofun, nofun⟩

theorem Moment.Step.turns_process {license : Option LicenseData} {timeout : Duration}
    (hstep : Moment.Step moment move moment' (.call (.process license timeout)) below first last)
    (hframes : ∀ frame ∈ moment.frames, frame.activity.asks frame.request = true) (state : KeyState) :
    Turns (.call (.process license timeout)) (last :: History.course 0 (first :: moment.history)) state ↔
      last.state?.or first.state? = some state := by
  rw [hstep.state?_first hframes (by simp) (by simp), Option.or_none]
  cases hstep.stops with
  | ended record hrecord =>
    obtain ⟨activity, entry, asked, result⟩ := record
    cases hrecord
    cases result with
    | ok => exact (Turns.licenseAccepted ..).iff
    | error fault => exact (Turns.licenseFailed ..).iff
  | asked frame =>
    generalize frame.request = request
    cases request with
    | hardwareError keySystem => exact (Turns.hardwareReported ..).iff
    | _ => exact ⟨nofun, nofun⟩

/-- Any other step shows no state before its end. -/
theorem Moment.Step.turns_other (hstep : Moment.Step moment move moment' activity below first last)
    (hframes : ∀ frame ∈ moment.frames, frame.activity.asks frame.request = true)
    (hasks : ∀ request, last = .asked request → activity.asks request = true)
    (hgenerate : ∀ initData customData, activity ≠ .call (.generate initData customData))
    (hrequest : ∀ timeout, activity ≠ .call (.keyRequest timeout))
    (hprocess : ∀ license timeout, activity ≠ .call (.process license timeout)) (state : KeyState) :
    Turns activity (last :: History.course 0 (first :: moment.history)) state ↔
      last.state?.or first.state? = some state := by
  rw [hstep.state?_first hframes hgenerate hrequest, Option.or_none]
  cases hstep.stops with
  | asked frame =>
    rw [state?_asked (hasks _ rfl) hprocess]
    refine ⟨fun hturns => ?_, nofun⟩
    generalize frame.request = request at hturns
    generalize History.course 0 (first :: moment.history) = course at hturns
    cases hturns with
    | requestWaits => exact absurd rfl (hrequest _)
    | hardwareReported => exact absurd rfl (hprocess _ _)
  | ended record hrecord =>
    obtain ⟨activity, entry, asked, result⟩ := record
    cases hrecord
    cases activity with
    | event fired => exact ⟨nofun, nofun⟩
    | call made =>
      cases made with
      | generate => exact absurd rfl (hgenerate _ _)
      | keyRequest => exact absurd rfl (hrequest _)
      | process => exact absurd rfl (hprocess _ _)
      | clear => exact (Turns.cleared ..).iff
      | _ => exact ⟨nofun, nofun⟩

/-- The steps that set the state are those that show one. -/
theorem Moment.Step.turns_iff (hstep : Moment.Step moment move moment' activity below first last)
    (hframes : ∀ frame ∈ moment.frames, frame.activity.asks frame.request = true)
    (hasks : ∀ request, last = .asked request → activity.asks request = true)
    (hgenerates : ∀ initData customData, activity = .call (.generate initData customData) →
      Generates initData customData (last :: History.course 0 (first :: moment.history))) (state : KeyState) :
    Turns activity (last :: History.course 0 (first :: moment.history)) state ↔
      last.state?.or first.state? = some state := by
  cases activity with
  | event fired => exact hstep.turns_other hframes hasks (by simp) (by simp) (by simp) state
  | call made =>
    cases made with
    | generate initData customData => exact hstep.turns_generate hasks (hgenerates _ _ rfl) state
    | keyRequest timeout => exact hstep.turns_keyRequest hframes hasks state
    | process license timeout => exact hstep.turns_process hframes state
    | _ => exact hstep.turns_other hframes hasks (by simp) (by simp) (by simp) state

end

/-! ### Runs -/

/-- What a step is that makes a native session, and what the setters set. -/
def management : Conduct := fun activity course _ after =>
  match activity with
  | .call (.generate initData customData) => Generates initData customData course
  | .call (.setOutputProtection enabled) => after.outputProtection = enabled
  | .call (.setSecurityManager handle) => after.securityManager = handle
  | _ => True

theorem management_kept (activity : Activity) : management.KeptBy activity := by
  intro session
  cases activity with
  | event fired => exact proceeds_of_forall (fun _ _ _ => trivial) fun _ _ _ _ _ => trivial
  | call made =>
    cases made with
    | generate initData customData => exact generates_generate initData customData
    | setOutputProtection enabled => exact rfl
    | setSecurityManager handle => exact rfl
    | _ => exact proceeds_of_forall (fun _ _ _ => trivial) fun _ _ _ _ _ => trivial

theorem Entry.state?_ne_closed (entry : Entry) : entry.state? ≠ some .closed := by
  intro hclosed
  unfold Entry.state? at hclosed
  split at hclosed
  · cases hclosed
  · cases hclosed
  · cases hclosed
  · cases hclosed
  · unfold Record.state? at hclosed
    split at hclosed
    · split at hclosed <;> cases hclosed
    · split at hclosed <;> cases hclosed
    · split at hclosed <;> cases hclosed
    · cases hclosed
    · cases hclosed
  · cases hclosed

theorem History.state_ne_closed (history : History) : history.state ≠ .closed := by
  induction history with
  | nil => nofun
  | cons entry earlier ih =>
    rw [History.state_cons]
    cases hstate : entry.state? with
    | none => exact ih
    | some state =>
      rintro rfl
      exact entry.state?_ne_closed hstate

namespace Activity

variable {activity : Activity}

theorem eq_setOutputProtection (hchanges : .outputProtection ∈ activity.changes) :
    ∃ enabled, activity = .call (.setOutputProtection enabled) := by
  cases activity with
  | event fired => cases fired <;> simp [changes, Event.changes] at hchanges
  | call made => cases made <;> first | exact ⟨_, rfl⟩ | simp [changes, Call.changes] at hchanges

theorem eq_setSecurityManager (hchanges : .securityManager ∈ activity.changes) :
    ∃ handle, activity = .call (.setSecurityManager handle) := by
  cases activity with
  | event fired => cases fired <;> simp [changes, Event.changes] at hchanges
  | call made => cases made <;> first | exact ⟨_, rfl⟩ | simp [changes, Call.changes] at hchanges

end Activity

variable {setting : Setting} {moment moment' : Moment} {move : Move}

/-- The state is `init` at first. A move is a step of one activity; when it is one of those that set the state, the state is what such a step sets it to, and otherwise it stays as it was. It is never `closed`. Output protection and the handle of the security manager are changed by their setters alone, and who has reported an error of the hardware ends with that fault. -/
theorem state_changed_by_turns (hreach : Reachable setting moment) (hmove : moment.move? move = some moment') :
    (Moment.initial setting).session.state = .init ∧ moment'.session.state ≠ .closed ∧
    (∃ activity, moment'.history.lastCourse.getLast? = some (.began activity) ∧
      ((∃ state, Turns activity moment'.history.lastCourse state ∧ moment'.session.state = state) ∨
        (∀ state, ¬Turns activity moment'.history.lastCourse state) ∧
          moment'.session.state = moment.session.state) ∧
      (moment'.session.outputProtection = moment.session.outputProtection ∨
        activity = .call (.setOutputProtection moment'.session.outputProtection)) ∧
      (moment'.session.securityManager = moment.session.securityManager ∨
        activity = .call (.setSecurityManager moment'.session.securityManager))) ∧
    (∀ license timeout entry asked result (earlier : History),
      moment'.history = .ended ⟨.call (.process license timeout), entry, asked, result⟩ :: earlier →
        hardwareErrors asked ≠ [] → result = .error (.status KeyStatus.hardwareError.code)) := by
  have hreach' : Reachable setting moment' := hreach.move hmove
  refine ⟨rfl, hreach'.state_eq ▸ moment'.history.state_ne_closed, ?_, ?_⟩
  · obtain ⟨activity, below, first, last, hstep, hsame, hasks, hbegan, hmanaged⟩ := hreach.step management_kept hmove
    rw [hstep.lastCourse_eq] at hmanaged hbegan ⊢
    have hturns := hstep.turns_iff hreach.frame_asks hasks (by rintro initData customData rfl; exact hmanaged)
    have hstate : moment'.session.state = (last.state?.or first.state?).getD moment.session.state := by
      rw [hreach'.state_eq, hstep.history_eq, History.state_cons, History.state_cons, ← hreach.state_eq, Option.getD_or]
    refine ⟨activity, hbegan, ?_, ?_, ?_⟩
    · cases hshown : last.state?.or first.state? with
      | none =>
        refine .inr ⟨fun state hturn => ?_, by rw [hstate, hshown, Option.getD_none]⟩
        rw [hturns, hshown] at hturn
        cases hturn
      | some state => exact .inl ⟨state, (hturns state).mpr hshown, by rw [hstate, hshown, Option.getD_some]⟩
    · by_cases hchanges : .outputProtection ∈ activity.changes
      · obtain ⟨enabled, rfl⟩ := Activity.eq_setOutputProtection hchanges
        exact .inr (by rw [show moment'.session.outputProtection = enabled from hmanaged])
      · exact .inl (hsame.same _ hchanges)
    · by_cases hchanges : .securityManager ∈ activity.changes
      · obtain ⟨handle, rfl⟩ := Activity.eq_setSecurityManager hchanges
        exact .inr (by rw [show moment'.session.securityManager = handle from hmanaged])
      · exact .inl (hsame.same _ hchanges)
  · intro license timeout entry asked result earlier hended hreported
    obtain ⟨⟨⟨status, -, hdecides, -, hnone⟩, -, -⟩, -⟩ := hreach'.fits.report _ _ hended
    have hstatus : status = some .hardwareError := by
      by_contra hother
      exact hreported (hnone hother)
    rw [hstatus] at hdecides
    cases hdecides
    rfl

/-- A native session without an id is closed, and then the state says so. -/
theorem state_changed_by_turns_after_refusal :
    ∃ moment moment' activity, Reachable settingWithSideChannel moment ∧ moment.session.state = .init ∧
      moment.move? (.reply (.close 1) ()) = some moment' ∧
      Turns activity moment'.history.lastCourse .emptySessionId ∧ moment'.session.state = .emptySessionId := by
  have hrun : ∃ moment moment', (Moment.initial settingWithSideChannel).run?
      [.begin (.call (.generate [] none)), .reply (.createSystem settingWithSideChannel.helper.keySystem) true,
        .reply (.construct [] none) (.ok "")] = some moment ∧
      moment.session.state = .init ∧ moment.move? (.reply (.close 1) ()) = some moment' ∧
      moment'.session.state = .emptySessionId :=
    ⟨_, _, rfl, rfl, rfl, rfl⟩
  obtain ⟨moment, moment', hrun, hinitial, hmove, hrefused⟩ := hrun
  have hreach : Reachable settingWithSideChannel moment := ⟨_, hrun⟩
  obtain ⟨-, -, ⟨activity, -, hturns, -, -⟩, -⟩ := state_changed_by_turns hreach hmove
  rcases hturns with ⟨state, hturns, hstate⟩ | ⟨-, hsame⟩
  · rw [hrefused] at hstate
    exact ⟨moment, moment', activity, hreach, hinitial, hmove, hstate ▸ hturns, hrefused⟩
  · rw [hrefused, hinitial] at hsame
    cases hsame

end ContentProtection.Native
