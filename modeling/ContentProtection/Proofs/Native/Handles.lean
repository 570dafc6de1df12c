import ContentProtection.Proofs.Native.Alike
import ContentProtection.Proofs.Native.Exclusion

/-!
# How long a session lasts

A call borrows a handle, so the session outlasts it. Once the last handle is gone, nobody gets one again; until then, neither events nor handles that are given up touch the open native session. And whoever is alone with the session always gets on: with nobody else to hold the lock, every request is one that a collaborator replies to.
-/

namespace ContentProtection.Native

open ContentProtection.Session (Fault Reply Request collaborators)
open Outline

/-! ### Calls and their handles -/

/-- The outline: handles in use are left, and a call ends with a handle, unless it gives one up. -/
def lasting : Outline where
  Holds _ _ _ := True
  Rely pinned before after := min pinned before.handles ≤ after.handles
  Report record session _ := ∀ made, record.activity = .call made → made ≠ .release → 0 < session.handles
  rely_refl _ _ := Nat.min_le_right _ _
  rely_trans hfirst hthen := by omega

section

variable {pinned : Nat} {session : Session} {asked : List Asked} {history : History}

theorem overlooks_lasting {parts : List Part} {may : Request → Prop} (hparts : .handles ∉ parts) :
    Overlooks lasting pinned parts may fun before after => min pinned before.handles ≤ after.handles where
  holds_same _ _ := trivial
  holds_asked _ _ := trivial
  holds_replied _ _ _ := trivial
  related_same {before after} hsame := by
    rw [show after.handles = before.handles from hsame.same _ hparts]
    exact Nat.min_le_right _ _
  related_rely hrely := hrely
  related_trans hfirst hthen := lasting.rely_trans hfirst hthen

theorem lasting_closeOpened {post : Session → List Asked → History → Unit → Prop}
    (hnext : ∀ (after : Session) asked' (history' : History), post after asked' history' ()) :
    lasting.Achieves pinned (closeOpened session) asked history post := by
  have hclose : Confined [.opened] (fun _ => False) (fun _ => True) closeOpened := confined_closeOpened (by decide)
  exact hclose.achieves (overlooks_lasting (by decide)) trivial fun _ _ _ _ _ _ _ => hnext _ _ _

theorem lasting_release {post : Session → List Asked → History → Unit → Prop}
    (hlast : session.handles ≤ 1 → ∀ (after : Session) asked' (history' : History), post after asked' history' ())
    (hshared : 1 < session.handles → post { session with handles := session.handles - 1 } asked history ()) :
    lasting.Achieves pinned (release session) asked history post := by
  refine achieves_bind.mpr (achieves_get.mpr (achieves_bind.mpr (achieves_modify.mpr (achieves_ite.mpr ⟨?_, ?_⟩))))
  · intro hnone
    exact lasting_closeOpened (hlast (by omega))
  · intro hsome
    exact hshared (by omega)

theorem deliver_of_gone {session : Session} (event : Event) (hgone : session.handles = 0) :
    deliver event session = .done session () := by
  show (if session.handles = 0 then _ else _ : Operation Unit) session = _
  rw [if_pos hgone]
  rfl

theorem lasting_event (event : Event) : lasting.MetBy (.event event) := by
  intro pinned session history _ _
  have howes : ∀ {after asked history}, min pinned session.handles ≤ after.handles →
      lasting.Owes (.event event) session pinned after asked history () :=
    fun hrely => ⟨trivial, hrely, nofun⟩
  show lasting.Achieves (pinned + 1) (deliver event session) _ _ _
  by_cases hhandle : 0 < session.handles
  · rw [deliver_of_handle event hhandle]
    have hparts : .handles ∉ event.changes := by
      cases event <;> simp [Event.changes]
    have hconfined : Confined event.changes (fun _ => False) (fun _ => True) (handle event) := confined_handle event
    refine achieves_andThen.mpr (hconfined.achieves (overlooks_lasting hparts) trivial ?_)
    intro handled asked' history' _ _ hkept _
    replace hkept : min (pinned + 1) (session.handles + 1) ≤ handled.handles := hkept
    refine lasting_release (fun hone after asked history => howes ?_) fun hshared => howes ?_
    · omega
    · show min pinned session.handles ≤ handled.handles - 1
      omega
  · rw [deliver_of_gone event (by omega)]
    exact howes (Nat.min_le_right _ _)

theorem lasting_met : lasting.Met := by
  have hothers : ∀ made : Call, .handles ∉ made.changes → made ≠ .release → lasting.MetBy (.call made) := by
    intro made hparts hrelease pinned session history _ hhandle
    rw [hasHandle_call hrelease, decide_eq_true_eq] at hhandle
    rw [pins_call hrelease]
    refine (confined_call made).achieves (overlooks_lasting hparts) trivial ?_
    intro after asked history result _ hkept _
    exact ⟨trivial, by show min pinned session.handles ≤ after.handles; omega, fun _ _ _ => by
      show 0 < after.handles; omega⟩
  intro activity
  cases activity with
  | event event => exact lasting_event event
  | call made =>
    cases made with
    | retain =>
      intro pinned session history _ hhandle
      refine ⟨trivial, ?_, fun _ _ _ => Nat.succ_pos session.handles⟩
      exact Nat.le_trans (Nat.min_le_right _ _) (Nat.le_succ session.handles)
    | release =>
      intro pinned session history _ hhandle
      have hpinned : pinned < session.handles := of_decide_eq_true hhandle
      have howes : ∀ {after asked history}, pinned ≤ after.handles →
          lasting.Owes (.call .release) session pinned after asked history () := by
        refine fun hleft => ⟨trivial, Nat.le_trans (Nat.min_le_left _ _) hleft, ?_⟩
        rintro made hmade hrelease
        cases hmade
        exact absurd rfl hrelease
      refine lasting_release (fun hone after asked history => howes ?_) fun hshared => howes ?_
      · omega
      · show pinned ≤ session.handles - 1
        omega
    | _ => exact hothers _ (by simp [Call.changes]) (by simp)

end

/-! ### Giving handles up -/

/-- Once there are no handles, there never are; and while there are some, the open native session is left. -/
structure Dwindles (before after : Session) : Prop where
  handles_eq_zero : before.handles = 0 → after.handles = 0
  opened_eq : 0 < after.handles → after.opened = before.opened

namespace Dwindles

variable {before between after : Session}

theorem refl (session : Session) : Dwindles session session := ⟨id, fun _ => rfl⟩

theorem trans (hfirst : Dwindles before between) (hthen : Dwindles between after) : Dwindles before after := by
  refine ⟨fun hgone => hthen.handles_eq_zero (hfirst.handles_eq_zero hgone), fun hleft => ?_⟩
  have hbetween : 0 < between.handles := by
    by_contra hgone
    exact absurd (hthen.handles_eq_zero (by omega)) (by omega)
  rw [hthen.opened_eq hleft, hfirst.opened_eq hbetween]

instance : IsPreorder Session Dwindles where
  refl := refl
  trans _ _ _ := trans

theorem of_sameBut {parts : List Part} (hsame : SameBut parts before after) (hhandles : .handles ∉ parts)
    (hopened : .opened ∉ parts) : Dwindles before after := by
  have hkept : after.handles = before.handles := hsame.same _ hhandles
  exact ⟨fun hgone => hkept.trans hgone, fun _ => hsame.same _ hopened⟩

end Dwindles

/-- An operation that only gives handles up. -/
abbrev Dwindling {α : Type} (program : Operation α) : Prop :=
  Program.Within Dwindles (fun _ => True) (fun _ => True) program

theorem closeOpened_of_none {session : Session} (hopened : session.opened = none) :
    closeOpened session = .done session () := by
  cases session
  cases hopened
  rfl

theorem closeOpened_of_some {session : Session} {number : Nat} (hopened : session.opened = some number) :
    closeOpened session = .ask { session with opened := none } (.close number) .done := by
  cases session
  cases hopened
  rfl

/-- Without handles, the native session may be closed. -/
theorem dwindles_closeOpened {session : Session} (hgone : session.handles = 0) :
    (closeOpened session).Within Dwindles (fun _ => True) (fun _ => True) session := by
  cases hopened : session.opened with
  | none =>
    rw [closeOpened_of_none hopened]
    exact ⟨.refl _, trivial⟩
  | some number =>
    rw [closeOpened_of_some hopened]
    have hclosed : Dwindles session { session with opened := none } :=
      ⟨fun _ => hgone, fun hleft => absurd hgone (Nat.ne_of_gt hleft)⟩
    exact ⟨hclosed, trivial, fun _ _ => ⟨.refl _, trivial⟩⟩

theorem dwindling_release : Dwindling release := by
  intro session
  have hgiven : Dwindles session { session with handles := session.handles - 1 } := by
    refine ⟨fun hgone => ?_, fun _ => rfl⟩
    show session.handles - 1 = 0
    omega
  refine Interaction.Within.after_change hgiven ?_
  show Interaction.Within _ _ _ _ ((if session.handles - 1 = 0 then closeOpened else pure () : Operation Unit)
    { session with handles := session.handles - 1 })
  split
  · rename_i hnone
    exact dwindles_closeOpened hnone
  · exact ⟨.refl _, trivial⟩

theorem dwindling_deliver (event : Event) : Dwindling (deliver event) := by
  intro session
  by_cases hhandle : 0 < session.handles
  · rw [deliver_of_handle event hhandle]
    have hconfined : Confined event.changes (fun _ => False) (fun _ => True) (handle event) := confined_handle event
    have hhandled : Dwindling (handle event) := by
      refine fun session => (hconfined session).mono ?_ (fun _ _ => trivial) fun _ _ => trivial
      intro before after hsame
      exact .of_sameBut hsame (by cases event <;> simp [Event.changes]) (by cases event <;> simp [Event.changes])
    have hretained : Dwindles session { session with handles := session.handles + 1 } :=
      ⟨fun hgone => absurd hgone (by omega), fun _ => rfl⟩
    exact ((hhandled _).andThen fun _ _ => dwindling_release).after_change hretained
  · rw [deliver_of_gone event (by omega)]
    exact ⟨.refl _, trivial⟩

/-- Whether an activity does away with the open native session. -/
def Activity.startsOver : Activity → Bool
  | call (.generate _ _) | call .clear => true
  | _ => false

/-- Nobody else makes native sessions come and go, or handles, but by giving up the last one. -/
def dwindling : Conduct := fun activity _ before after =>
  activity.startsOver = false → (activity = .call .retain → 0 < before.handles) → Dwindles before after

theorem dwindling_kept (activity : Activity) : dwindling.KeptBy activity := by
  have hothers : ∀ made : Call, .handles ∉ made.changes → .opened ∉ made.changes → dwindling.KeptBy (.call made) := by
    intro made hhandles hopened
    have hconfined : Confined made.changes made.mayAsk (fun _ => True) (Activity.call made).program :=
      confined_call made
    exact Conduct.keptBy_of_within hconfined fun _ _ _ hsame _ _ => .of_sameBut hsame hhandles hopened
  cases activity with
  | event fired =>
    have hdeliver : Dwindling (Activity.event fired).program := dwindling_deliver fired
    exact Conduct.keptBy_of_within hdeliver fun _ _ _ hdwindles _ _ => hdwindles
  | call made =>
    cases made with
    | generate | clear => exact fun _ => proceeds_of_forall (fun _ _ _ => nofun) fun _ _ _ _ _ => nofun
    | retain => exact fun _ _ hhandle => ⟨fun hgone => absurd hgone (Nat.ne_of_gt (hhandle rfl)), fun _ => rfl⟩
    | release =>
      have hrelease : Dwindling (Activity.call .release).program := dwindling_release
      exact Conduct.keptBy_of_within hrelease fun _ _ _ hdwindles _ _ => hdwindles
    | _ => exact hothers _ (by simp [Call.changes]) (by simp [Call.changes])

/-! ### Waiting for the lock -/

/-- Whoever waits for the lock has found it held. -/
def waiting : Conduct := fun _ course _ after =>
  ∀ earlier, course = .asked .waitForLock :: earlier → after.isLocked = true

section

variable {α : Type} {activity : Activity} {course : List Entry} {asked : List Asked} {before session : Session}
  {post : List Entry → List Asked → Session → Session → α → Prop}

theorem waiting_of_lockFree {program : Operation α} (hasks : Asks isLockFree program)
    (hnext : ∀ course asked before after value, post course asked before after value) :
    Proceeds (waiting activity) (program session) course asked before post := by
  refine proceeds_of_within (fun _ _ _ => True) (hasks session) trivial (fun _ _ _ _ _ _ => trivial) ?_
    (fun _ _ _ _ _ _ => trivial) fun _ _ _ _ _ _ _ => hnext _ _ _ _ _
  rintro request course before after hrequest - earlier hcourse
  cases hcourse
  cases hrequest

theorem waiting_awaitUnlocked {post : List Entry → List Asked → Session → Session → Unit → Prop}
    (hnext : ∀ course asked before after, post course asked before after ()) :
    Proceeds (waiting activity) (awaitUnlocked session) course asked before post := by
  refine proceeds_bind.mpr (proceeds_get.mpr (proceeds_ite.mpr ⟨fun hheld => ?_, fun _ => hnext _ _ _ _⟩))
  exact ⟨fun _ _ => hheld, fun hlock => absurd rfl hlock⟩

theorem waiting_openSession {post : List Entry → List Asked → Session → Session → Option Nat → Prop}
    (hnext : ∀ course asked before after opened, post course asked before after opened) :
    Proceeds (waiting activity) (openSession session) course asked before post :=
  proceeds_bind.mpr (waiting_awaitUnlocked fun _ _ _ _ => hnext _ _ _ _ _)

theorem waiting_resolveKeyStatus {license : Option LicenseData} {timeout : Duration}
    {post : List Entry → List Asked → Session → Session → Option KeyStatus → Prop}
    (hnext : ∀ course asked before after status, post course asked before after status) :
    Proceeds (waiting (.call (.process license timeout))) (resolveKeyStatus session) course asked before post := by
  refine proceeds_bind.mpr (waiting_openSession fun course asked before found opened => ?_)
  refine proceeds_bind.mpr (proceeds_get.mpr ?_)
  cases found.key.status with
  | some status => exact hnext _ _ _ _ _
  | none =>
    cases opened with
    | none => exact hnext _ _ _ _ _
    | some number =>
      refine proceeds_ite.mpr ⟨fun _ => hnext _ _ _ _ _, fun _ => proceeds_bind.mpr (proceeds_ask.mpr ⟨nofun, ?_⟩)⟩
      exact fun _ _ _ => hnext _ _ _ _ _

theorem waiting_settle {license : Option LicenseData} {timeout : Duration}
    {post : List Entry → List Asked → Session → Session → Except Fault Unit → Prop}
    (hnext : ∀ course asked before after result, post course asked before after result) :
    Proceeds (waiting (.call (.process license timeout))) (settle timeout session) course asked before post := by
  refine proceeds_bind.mpr (waiting_of_lockFree (asks_await _ timeout rfl) fun _ _ _ _ _ => ?_)
  refine proceeds_bind.mpr (waiting_resolveKeyStatus fun _ _ _ _ status => proceeds_bind.mpr (proceeds_modify.mpr ?_))
  refine proceeds_ite.mpr ⟨fun _ => proceeds_bind.mpr (proceeds_get.mpr ?_), fun _ => hnext _ _ _ _ _⟩
  exact proceeds_bind.mpr (proceeds_ask.mpr ⟨nofun, fun _ _ _ => hnext _ _ _ _ _⟩)

end

theorem waiting_process (license : Option LicenseData) (timeout : Duration) :
    waiting.KeptBy (.call (.process license timeout)) := by
  intro session
  show Proceeds (waiting _) (process license timeout session) _ _ _ _
  cases license with
  | none => exact waiting_settle fun _ _ _ _ _ => nofun
  | some given =>
    rw [process_some]
    refine proceeds_bind.mpr (proceeds_bind.mpr (waiting_openSession fun course asked before found opened => ?_))
    cases opened with
    | none => exact waiting_settle fun _ _ _ _ _ => nofun
    | some number =>
      refine proceeds_bind.mpr (proceeds_ask.mpr ⟨nofun, fun _ _ _ => ?_⟩)
      exact waiting_settle fun _ _ _ _ _ => nofun

theorem waiting_kept (activity : Activity) : waiting.KeptBy activity := by
  have hlocks : ∀ activity : Activity, activity.locks = true → waiting.KeptBy activity := by
    intro activity hlocks
    refine (locking_kept activity).mono fun course before after hlocking earlier hcourse => ?_
    rw [locking, hlocks] at hlocking
    subst hcourse
    cases hlocking with
    | waits _ hheld hsame => exact hsame.trans hheld
    | takes _ _ hlock => exact absurd rfl hlock
    | keeps _ _ _ _ hlock => exact absurd rfl hlock
  have hothers : ∀ activity : Activity, activity.asks .waitForLock = false → waiting.KeptBy activity := by
    intro activity hasks
    refine (footprint_kept activity).mono fun course before after hfootprint earlier hcourse => ?_
    cases hasks.symm.trans (hfootprint.2 _ _ hcourse)
  cases activity with
  | event fired => exact hothers _ (by cases fired <;> rfl)
  | call made =>
    cases made with
    | generate | decrypt | clear => exact hlocks _ rfl
    | process license timeout => exact waiting_process license timeout
    | setMemory memory =>
      refine fun _ => proceeds_bind.mpr (waiting_awaitUnlocked fun _ _ _ _ earlier hcourse => ?_)
      cases hcourse
    | _ => exact hothers _ rfl

/-- An entry of the course of an activity that gets certain replies. -/
def Activity.Exchanges (activity : Activity) (answer : (request : Request) → Reply request) (entry : Entry) : Prop :=
  ∃ request, activity.asks request = true ∧ (entry = .asked request ∨ entry = .replied request (answer request))

/-! ### Runs -/

section

variable {moment moment' : Moment} {move : Move} {activity : Activity} {below : List Frame} {first last : Entry}

theorem Moment.Step.dwindles {course : List Entry} (hstep : Moment.Step moment move moment' activity below first last)
    (hasks : ∀ frame ∈ moment.frames, frame.activity.asks frame.request = true) (hover : activity.startsOver = false)
    (hdwindling : dwindling activity course moment.session moment'.session) :
    Dwindles moment.session moment'.session := by
  refine hdwindling hover ?_
  rintro rfl
  cases hstep.starts with
  | begun _ hbegin =>
    rw [Moment.mayBegin, Bool.and_eq_true] at hbegin
    exact of_decide_eq_true hbegin.1
  | replied frame reply hactivity hframes =>
    have hretain := hasks frame (hframes ▸ List.mem_cons_self)
    rw [hactivity] at hretain
    cases hretain

/-- Once there are no handles, there never are. -/
theorem Moment.Step.gone {course : List Entry} (hstep : Moment.Step moment move moment' activity below first last)
    (hasks : ∀ frame ∈ moment.frames, frame.activity.asks frame.request = true)
    (hsame : SameBut activity.changes moment.session moment'.session)
    (hdwindling : dwindling activity course moment.session moment'.session) (hgone : moment.session.handles = 0) :
    moment'.session.handles = 0 := by
  by_cases hover : activity.startsOver = true
  · have hkept : moment'.session.handles = moment.session.handles := by
      refine hsame.same .handles ?_
      cases activity with
      | event fired => cases hover
      | call made => cases made <;> simp [Activity.changes, Call.changes, Activity.startsOver] at hover ⊢
    exact hkept.trans hgone
  · exact (hstep.dwindles hasks (by simpa using hover) hdwindling).handles_eq_zero hgone

/-- Below the activity that makes a step, nobody awaits the reply to a quiet request if only the topmost one does. -/
theorem Moment.Step.loud_below (hstep : Moment.Step moment move moment' activity below first last)
    (hloud : ∀ frame ∈ moment.frames.tail, isQuiet frame.request = false) :
    ∀ frame ∈ below, isQuiet frame.request = false := by
  cases hstep.starts with
  | replied top reply _ hframes =>
    rw [hframes] at hloud
    exact hloud
  | begun hframes hbegin =>
    subst hframes
    cases hbelow : moment.frames with
    | nil => exact fun _ hframe => (List.not_mem_nil hframe).elim
    | cons top rest =>
      rw [Moment.mayBegin, hbelow, Bool.and_eq_true] at hbegin
      rw [hbelow] at hloud
      intro frame hframe
      rcases List.mem_cons.mp hframe with rfl | hframe
      · exact not_isQuiet_of_admits hbegin.2
      · exact hloud frame hframe

end

namespace Reachable

variable {setting : Setting} {moment moment' : Moment} {move : Move}

/-- A call that gives no handle up ends with one. -/
theorem handle_at_end {made : Call} {entry : Session} {asked : List Asked} {result : made.Result}
    {earlier : History} (hreach : Reachable setting moment)
    (hended : moment.history = .ended ⟨.call made, entry, asked, result⟩ :: earlier) (hrelease : made ≠ .release) :
    0 < moment.session.handles :=
  (lasting_met.fits trivial hreach).report _ _ hended made rfl hrelease

/-- Nothing begins on top of a quiet request, so all but the topmost suspended activity await other replies. -/
theorem loud_tail (hreach : Reachable setting moment) :
    ∀ frame ∈ moment.frames.tail, isQuiet frame.request = false := by
  refine induct (fun _ hframe => (List.not_mem_nil hframe).elim) ?_ hreach
  intro moment move moment' hreach hloud hmove
  obtain ⟨activity, below, first, last, hstep⟩ := hreach.steps hmove
  have hbelow := hstep.loud_below hloud
  cases hstep.stops with
  | ended record _ hframes => exact fun frame hframe => hbelow frame (List.mem_of_mem_tail (hframes ▸ hframe))
  | asked top _ hframes =>
    rw [hframes]
    exact hbelow

theorem loud_of_ended (hreach : Reachable setting moment) :
    ∀ record (earlier : History), moment.history = .ended record :: earlier →
      ∀ frame ∈ moment.frames, isQuiet frame.request = false := by
  refine induct (fun _ _ hended => by cases hended) ?_ hreach
  intro moment move moment' hreach _ hmove record earlier hended
  obtain ⟨activity, below, first, last, hstep⟩ := hreach.steps hmove
  obtain ⟨rfl, -⟩ := List.cons.inj (hstep.history_eq.symm.trans hended)
  cases hstep.stops with
  | ended _ _ hframes => exact hframes ▸ hstep.loud_below hreach.loud_tail

theorem loud_of_asked {request : Request} {earlier : History} (hreach : Reachable setting moment)
    (hasked : moment.history = .asked request :: earlier) (hloud : isQuiet request = false) :
    ∀ frame ∈ moment.frames, isQuiet frame.request = false := by
  obtain ⟨top, below, hframes, rfl⟩ := hreach.asked_by _ _ hasked
  have htail := hreach.loud_tail
  rw [hframes] at htail ⊢
  intro frame hframe
  rcases List.mem_cons.mp hframe with rfl | hframe
  · exact hloud
  · exact htail frame hframe

theorem isLocked_of_waiting (hreach : Reachable setting moment) :
    ∀ frame below, moment.frames = frame :: below → frame.request = .waitForLock → moment.session.isLocked = true := by
  refine induct (fun _ _ hframes => by cases hframes) ?_ hreach
  intro moment move moment' hreach _ hmove frame below hframes hwaits
  obtain ⟨activity, below', first, last, hstep, -, -, -, hwaiting⟩ := hreach.step waiting_kept hmove
  rw [hstep.lastCourse_eq] at hwaiting
  cases hstep.stops with
  | ended record _ hbelow =>
    have hloud := hstep.loud_below hreach.loud_tail frame (hbelow ▸ hframes ▸ List.mem_cons_self)
    rw [hwaits] at hloud
    cases hloud
  | asked top _ htop =>
    obtain ⟨rfl, -⟩ := List.cons.inj (htop.symm.trans hframes)
    exact hwaiting _ (by rw [hwaits])

/-- Whoever is alone does not wait for the lock. -/
theorem not_waiting {frame : Frame} (hreach : Reachable setting moment) (hframes : moment.frames = [frame]) :
    frame.request ≠ .waitForLock := by
  intro hwaits
  have hcount := hreach.countP_holdsLock
  rw [hreach.isLocked_of_waiting frame [] hframes hwaits, hframes] at hcount
  simp [Frame.holdsLock, hwaits] at hcount

theorem finishes_advance {activity : Activity} {entry : Session} {asked : List Asked} {history : History}
    {interaction : Interaction collaborators Session activity.Result} (answer : (request : Request) → Reply request)
    (hreach : Reachable setting (Moment.advance activity entry asked [] history interaction)) :
    ∃ moves moment', (Moment.advance activity entry asked [] history interaction).run? moves = some moment' ∧
      (∀ move ∈ moves, ∃ request, move = .reply request (answer request)) ∧ moment'.frames = [] ∧
      ∃ asked result course, moment'.history = .ended ⟨activity, entry, asked, result⟩ :: course ++ history ∧
        ∀ entry ∈ course, activity.Exchanges answer entry := by
  induction interaction generalizing asked history with
  | done after result => exact ⟨[], _, rfl, by simp, rfl, asked, result, [], rfl, by simp⟩
  | ask after request resume ih =>
    have hasks : activity.asks request = true :=
      hreach.frame_asks ⟨activity, entry, ⟨after, request⟩ :: asked, request, resume⟩ List.mem_cons_self
    have hmove : (Moment.advance activity entry asked [] history (.ask after request resume)).move?
        (.reply request (answer request)) =
          some (Moment.advance activity entry (⟨after, request⟩ :: asked) []
            (.replied request (answer request) :: .asked request :: history) (resume after (answer request))) :=
      dif_pos ⟨rfl, hreach.not_waiting rfl⟩
    obtain ⟨moves, moment', hrun, hanswers, hframes, asked', result, course, hended, hcourse⟩ :=
      ih _ _ (hreach.move hmove)
    refine ⟨_ :: moves, moment', (Moment.run?_cons hmove).trans hrun, ?_, hframes, asked', result,
      course ++ [.replied request (answer request), .asked request], by simp [hended], ?_⟩
    · intro move hmem
      rcases List.mem_cons.mp hmem with rfl | hmem
      · exact ⟨request, rfl⟩
      · exact hanswers move hmem
    · intro entry hentry
      rcases List.mem_append.mp hentry with hentry | hentry
      · exact hcourse entry hentry
      · refine ⟨request, hasks, ?_⟩
        simpa [or_comm] using hentry

/-- Whoever is alone gets to its end, whatever the replies are. -/
theorem finishes {frame : Frame} (answer : (request : Request) → Reply request) (hreach : Reachable setting moment)
    (hframes : moment.frames = [frame]) :
    ∃ moves moment', moment.run? moves = some moment' ∧
      (∀ move ∈ moves, ∃ request, move = .reply request (answer request)) ∧ moment'.frames = [] ∧
      ∃ asked result course,
        moment'.history = .ended ⟨frame.activity, frame.entry, asked, result⟩ :: course ++ moment.history ∧
        ∀ entry ∈ course, frame.activity.Exchanges answer entry := by
  have hlock := hreach.not_waiting hframes
  have hasks := hreach.frame_asks frame (hframes ▸ List.mem_cons_self)
  obtain ⟨session, frames, history⟩ := moment
  cases hframes
  have hmove : (⟨session, [frame], history⟩ : Moment).move? (.reply frame.request (answer frame.request)) =
      some (Moment.advance frame.activity frame.entry frame.asked []
        (.replied frame.request (answer frame.request) :: history) (frame.resume session (answer frame.request))) :=
    dif_pos ⟨rfl, hlock⟩
  obtain ⟨moves, moment', hrun, hanswers, hframes, asked, result, course, hended, hcourse⟩ :=
    finishes_advance answer (hreach.move hmove)
  refine ⟨_ :: moves, moment', (Moment.run?_cons hmove).trans hrun, ?_, hframes, asked, result,
    course ++ [.replied frame.request (answer frame.request)], by simp [hended], ?_⟩
  · intro move hmem
    rcases List.mem_cons.mp hmem with rfl | hmem
    · exact ⟨_, rfl⟩
    · exact hanswers move hmem
  · intro entry hentry
    rcases List.mem_append.mp hentry with hentry | hentry
    · exact hcourse entry hentry
    · exact ⟨frame.request, hasks, .inr (List.mem_singleton.mp hentry)⟩

end Reachable

end ContentProtection.Native
