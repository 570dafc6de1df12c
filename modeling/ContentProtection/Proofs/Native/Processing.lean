import ContentProtection.Proofs.Native.Handles

/-!
# The course of processing a license

Processing feeds the license, waits for the key status unless it was signalled, and then asks no more than one collaborator that gives others no chance: for the status of the key, which is what lets nobody in between the answer and the result. An error of the hardware is reported last and once, and the result says so. Hence the errors that a history shows as reported are those that it shows as results.
-/

namespace ContentProtection.Native

open ContentProtection.Session (Fault Reply Request)

/-! ### Steps -/

def isHardwareError : Request → Bool
  | .hardwareError _ => true
  | _ => false

/-- If the last thing in a course is a reply, it is one to such a request. -/
def Follows (may : Request → Bool) (course : List Entry) : Prop :=
  ∀ request reply earlier, course = .replied request reply :: earlier → may request = true

/-- The steps of processing a license. -/
inductive Processes (license : Option LicenseData) (timeout : Duration) : List Entry → Session → Session → Prop
  | feeds {before after : Session} (number : Nat) (given : Bytes) (course : List Entry)
    (hcourse : Follows (!isQuiet ·) course) (hlatch : after.keyStatusReady = before.keyStatusReady) :
    Processes license timeout (.asked (.update number given) :: course) before after
  | waits {before after : Session} (course : List Entry) (hcourse : Follows (!isQuiet ·) course)
    (hlatch : before.keyStatusReady.isSignalled = false) :
    Processes license timeout (.asked (.wait .keyStatusReady timeout) :: course) before after
  | looks {before after : Session} (request : Request) (course : List Entry) (hquiet : isQuiet request = true)
    (hcourse : Follows (!isHardwareError ·) course) :
    Processes license timeout (.asked request :: course) before after
  | fails {before after : Session} (entry : Session) (asked : List Asked) (keySystem : String) (course : List Entry) :
    Processes license timeout (.ended ⟨.call (.process license timeout), entry, asked,
      .error (.status KeyStatus.hardwareError.code)⟩ :: .replied (.hardwareError keySystem) () :: course) before after
  | ends {before after : Session} (entry : Session) (asked : List Asked) (result : Except Fault Unit)
    (course : List Entry) (hcourse : Follows (!isHardwareError ·) course)
    (hresult : result ≠ .error (.status KeyStatus.hardwareError.code)) :
    Processes license timeout (.ended ⟨.call (.process license timeout), entry, asked, result⟩ :: course) before after

theorem outcome_eq_hardwareError {status : Option KeyStatus} :
    outcome status = .error (.status KeyStatus.hardwareError.code) ↔ status = some .hardwareError := by
  rcases status with _ | status
  · simp [outcome]
  · cases status <;> simp [outcome, KeyStatus.code]

theorem Follows.mono {may may' : Request → Bool} {course : List Entry} (hfollows : Follows may course)
    (hmay : ∀ request, may request = true → may' request = true) : Follows may' course :=
  fun request reply earlier hcourse => hmay request (hfollows request reply earlier hcourse)

theorem follows_replied {may : Request → Bool} {request : Request} {reply : Reply request} {course : List Entry}
    (hmay : may request = true) : Follows may (.replied request reply :: course) := by
  intro request' reply' earlier hcourse
  cases hcourse
  exact hmay

theorem isHardwareError_of_loud {request : Request} (hloud : (!isQuiet request) = true) :
    (!isHardwareError request) = true := by
  cases request <;> first | rfl | cases hloud

section

variable {license : Option LicenseData} {timeout : Duration} {session before : Session} {course : List Entry}
  {asked : List Asked}

theorem processes_awaitUnlocked {post : List Entry → List Asked → Session → Session → Unit → Prop}
    (hcourse : Follows (!isHardwareError ·) course) (hnext : post course asked before session ()) :
    Proceeds (Processes license timeout) (awaitUnlocked session) course asked before post := by
  refine proceeds_bind.mpr (proceeds_get.mpr (proceeds_ite.mpr ⟨fun _ => ?_, fun _ => hnext⟩))
  exact ⟨.looks _ _ rfl hcourse, fun hlock => absurd rfl hlock⟩

theorem processes_resolveKeyStatus {post : List Entry → List Asked → Session → Session → Option KeyStatus → Prop}
    (hcourse : Follows (!isHardwareError ·) course)
    (hnext : ∀ course asked before after status, Follows (!isHardwareError ·) course →
      post course asked before after status) :
    Proceeds (Processes license timeout) (resolveKeyStatus session) course asked before post := by
  refine proceeds_bind.mpr (proceeds_bind.mpr (processes_awaitUnlocked hcourse ?_))
  refine proceeds_bind.mpr (proceeds_get.mpr (proceeds_pure.mpr (proceeds_bind.mpr (proceeds_get.mpr ?_))))
  cases session.key.status with
  | some status => exact hnext _ _ _ _ _ hcourse
  | none =>
    cases session.opened with
    | none => exact hnext _ _ _ _ _ hcourse
    | some number =>
      refine proceeds_ite.mpr ⟨fun _ => hnext _ _ _ _ _ hcourse, fun _ => ?_⟩
      refine proceeds_bind.mpr (proceeds_ask.mpr ⟨.looks _ _ rfl hcourse, fun _ between status => ?_⟩)
      exact hnext _ _ _ _ _ (follows_replied rfl)

theorem processes_settle {entry : Session} (hcourse : Follows (!isQuiet ·) course) :
    Proceeds (Processes license timeout) (settle timeout session) course asked session
      fun course asked before after result => Processes license timeout
        (.ended ⟨.call (.process license timeout), entry, asked, result⟩ :: course) before after := by
  have hunreported : Follows (!isHardwareError ·) course := hcourse.mono fun _ => isHardwareError_of_loud
  have hrest : ∀ {session before : Session} {course : List Entry} {asked : List Asked},
      Follows (!isHardwareError ·) course →
        Proceeds (Processes license timeout) ((do
          let status ← resolveKeyStatus
          setState (if (outcome status).isOk then .ready else .error)
          if status = some .hardwareError then ContentProtection.Session.ask (.hardwareError (← get).keySystem)
          signal .stateChanged
          return outcome status : Operation (Except Fault Unit)) session) course asked before
          fun course asked before after result => Processes license timeout
            (.ended ⟨.call (.process license timeout), entry, asked, result⟩ :: course) before after := by
    intro session before course asked hcourse
    refine proceeds_bind.mpr (processes_resolveKeyStatus hcourse fun course asked before after status hcourse => ?_)
    refine proceeds_bind.mpr (proceeds_modify.mpr (proceeds_ite.mpr ⟨fun hfailed => ?_, fun hother => ?_⟩))
    · subst hfailed
      refine proceeds_bind.mpr (proceeds_get.mpr (proceeds_bind.mpr (proceeds_ask.mpr ⟨.looks _ _ rfl hcourse, ?_⟩)))
      exact fun _ between reply => .fails entry _ _ _
    · exact .ends entry _ _ _ hcourse (outcome_eq_hardwareError.not.mpr hother)
  refine proceeds_bind.mpr (proceeds_bind.mpr (proceeds_modifyGet.mpr
    (proceeds_ite.mpr ⟨fun _ => ?_, fun hfree => ?_⟩)))
  · exact hrest hunreported
  · have hlatch : session.keyStatusReady.isSignalled = false := by
      simpa [Latch.take, Session.latch] using hfree
    refine proceeds_bind.mpr (proceeds_ask.mpr ⟨.waits _ hcourse hlatch, fun _ between reply => ?_⟩)
    exact hrest (follows_replied rfl)

end

/-- Processing keeps to its steps, and nobody else asks for what is asked for in them. -/
def processing : Conduct := fun activity course before after =>
  match activity with
  | .call (.process license timeout) => Processes license timeout course before after
  | _ => True

theorem processing_kept (activity : Activity) : processing.KeptBy activity := by
  have hbegan : ∀ activity, Follows (!isQuiet ·) [.began activity] := fun _ _ _ _ => nofun
  cases activity with
  | event fired => exact fun _ => proceeds_of_forall (fun _ _ _ => trivial) fun _ _ _ _ _ => trivial
  | call made =>
    cases made with
    | process license timeout =>
      intro session
      show Proceeds (Processes license timeout) (process license timeout session) _ _ _ _
      cases license with
      | none => exact processes_settle (hbegan _)
      | some given =>
        rw [process_some]
        refine proceeds_bind.mpr (proceeds_bind.mpr (proceeds_bind.mpr (processes_awaitUnlocked ?_ ?_)))
        · exact (hbegan _).mono fun _ => isHardwareError_of_loud
        · refine proceeds_bind.mpr (proceeds_get.mpr (proceeds_pure.mpr ?_))
          cases session.opened with
          | none => exact processes_settle (hbegan _)
          | some number =>
            refine proceeds_bind.mpr (proceeds_ask.mpr ⟨.feeds _ _ _ (hbegan _) rfl, fun _ between reply => ?_⟩)
            exact processes_settle (follows_replied rfl)
    | _ => exact fun _ => proceeds_of_forall (fun _ _ _ => trivial) fun _ _ _ _ _ => trivial

/-! ### Errors of the hardware -/

/-- Whether an error of the hardware is being reported. -/
def Entry.reportsHardwareError : Entry → Bool
  | asked request => isHardwareError request
  | _ => false

/-- Whether an error of the hardware has been reported just now. -/
def Entry.reportedHardwareError : Entry → Bool
  | replied request _ => isHardwareError request
  | _ => false

/-- Whether a license has come to nothing by an error of the hardware. -/
def Entry.failsByHardwareError : Entry → Bool
  | ended ⟨.call (.process _ _), _, _, .error (.status code)⟩ => decide (code = KeyStatus.hardwareError.code)
  | _ => false

theorem Entry.failsByHardwareError_eq (license : Option LicenseData) (timeout : Duration) (entry : Session)
    (asked : List Asked) (result : Except Fault Unit) :
    (Entry.ended ⟨.call (.process license timeout), entry, asked, result⟩).failsByHardwareError =
      decide (result = .error (.status KeyStatus.hardwareError.code)) := by
  cases result with
  | ok => rfl
  | error fault => cases fault <;> simp [failsByHardwareError]

theorem Follows.reportedHardwareError {first : Entry} {course : List Entry}
    (hfollows : Follows (!isHardwareError ·) (first :: course)) : first.reportedHardwareError = false := by
  cases first with
  | replied request reply => simpa [Entry.reportedHardwareError] using hfollows request reply course rfl
  | _ => rfl

section

variable {moment moment' : Moment} {move : Move} {activity : Activity} {below : List Frame} {first last : Entry}

/-- A step that goes on after an error of the hardware was reported ends by it, and no other step does. -/
theorem Moment.Step.failsByHardwareError_eq {before after : Session}
    (hstep : Moment.Step moment move moment' activity below first last)
    (hframes : ∀ frame ∈ moment.frames, frame.activity.asks frame.request = true)
    (hprocessing : processing activity (last :: History.course 0 (first :: moment.history)) before after) :
    last.failsByHardwareError = first.reportedHardwareError := by
  by_cases hprocess : ∃ license timeout, activity = .call (.process license timeout)
  · obtain ⟨license, timeout, rfl⟩ := hprocess
    obtain ⟨course, hcourse⟩ : ∃ course, History.course 0 (first :: moment.history) = first :: course := by
      cases hstep.starts <;> exact ⟨_, rfl⟩
    rw [hcourse] at hprocessing
    cases hprocessing with
    | feeds _ _ _ hcourse => exact (hcourse.mono fun _ => isHardwareError_of_loud).reportedHardwareError.symm
    | waits _ hcourse => exact (hcourse.mono fun _ => isHardwareError_of_loud).reportedHardwareError.symm
    | looks _ _ _ hcourse => exact hcourse.reportedHardwareError.symm
    | fails entry asked keySystem => rfl
    | ends entry asked result _ hcourse hresult =>
      rw [Entry.failsByHardwareError_eq, hcourse.reportedHardwareError, decide_eq_false hresult]
  · have hfirst : first.reportedHardwareError = false := by
      cases hstep.starts with
      | begun => rfl
      | replied frame reply hactivity hbefore =>
        have hframe := hframes frame (hbefore ▸ List.mem_cons_self)
        rw [hactivity] at hframe
        show isHardwareError frame.request = false
        generalize frame.request = request at hframe
        cases request with
        | hardwareError keySystem => exact absurd (Activity.eq_process hframe) hprocess
        | _ => rfl
    rw [hfirst]
    cases hstep.stops with
    | asked => rfl
    | ended record hrecord =>
      obtain ⟨activity, entry, asked, result⟩ := record
      cases hrecord
      cases activity with
      | event fired => rfl
      | call made => cases made <;> first | rfl | exact absurd ⟨_, _, rfl⟩ hprocess

theorem Moment.Step.countP_frames (hstep : Moment.Step moment move moment' activity below first last) :
    moment.frames.countP (isHardwareError ·.request) =
        below.countP (isHardwareError ·.request) + first.reportedHardwareError.toNat ∧
      moment'.frames.countP (isHardwareError ·.request) =
        below.countP (isHardwareError ·.request) + last.reportsHardwareError.toNat := by
  refine ⟨?_, ?_⟩
  · cases hstep.starts with
    | begun hframes =>
      rw [hframes]
      rfl
    | replied frame reply _ hframes =>
      rw [hframes, List.countP_cons, Entry.reportedHardwareError]
      cases isHardwareError frame.request <;> rfl
  · cases hstep.stops with
    | ended record _ hframes =>
      rw [hframes]
      rfl
    | asked frame _ hframes =>
      rw [hframes, List.countP_cons, Entry.reportsHardwareError]
      cases isHardwareError frame.request <;> rfl

end

/-- Whoever has reported an error of the hardware is about to fail by it, and nobody else fails by it. -/
theorem Reachable.countP_hardwareErrors {setting : Setting} {moment : Moment} (hreach : Reachable setting moment) :
    moment.history.countP Entry.reportsHardwareError =
      moment.history.countP Entry.failsByHardwareError + moment.frames.countP (isHardwareError ·.request) := by
  refine induct rfl ?_ hreach
  intro moment move moment' hreach hcount hmove
  obtain ⟨activity, below, first, last, hstep, -, -, -, hprocessing⟩ := hreach.step processing_kept hmove
  rw [hstep.lastCourse_eq] at hprocessing
  have hfails := hstep.failsByHardwareError_eq hreach.frame_asks hprocessing
  have hfirst : first.reportsHardwareError = false ∧ first.failsByHardwareError = false := by
    cases hstep.starts <;> exact ⟨rfl, rfl⟩
  obtain ⟨hbefore, hafter⟩ := hstep.countP_frames
  have hcons : ∀ (property : Entry → Bool), moment'.history.countP property =
      moment.history.countP property + (property first).toNat + (property last).toNat := by
    intro property
    rw [hstep.history_eq, List.countP_cons, List.countP_cons]
    cases property first <;> cases property last <;> rfl
  rw [hcons, hcons, hafter, hfirst.1, hfirst.2, hfails, hcount, hbefore]
  simp only [Bool.toNat_false]
  omega

/-- With nobody about to fail, as many errors were reported as licenses have come to nothing by one. -/
theorem Reachable.hardwareErrors_balanced {setting : Setting} {moment : Moment} (hreach : Reachable setting moment)
    (hloud : ∀ frame ∈ moment.frames, isQuiet frame.request = false) :
    moment.history.countP Entry.reportsHardwareError = moment.history.countP Entry.failsByHardwareError := by
  have hnobody : moment.frames.countP (isHardwareError ·.request) = 0 := by
    refine List.countP_eq_zero.mpr fun frame hframe => ?_
    simpa using isHardwareError_of_loud (by simpa using hloud frame hframe)
  rw [hreach.countP_hardwareErrors, hnobody, Nat.add_zero]

end ContentProtection.Native
