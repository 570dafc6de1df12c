import ContentProtection.Proofs.Native.Run

/-!
# Proof outlines for runs

How a fact about every run comes from facts about single activities. An outline says what holds at every moment, what a suspended activity relies on while others run, and what an activity reports when it ends. An activity meets the outline when it keeps the first, leaves the second to those below it and makes its report good, given no more than the outline at each of its requests. When all activities do, so does every run, however deep they are nested.
-/

namespace ContentProtection.Native

open ContentProtection.Session (Reply Request collaborators)

structure Outline where
  /-- What holds at every moment, with so many handles in use. -/
  Holds : (pinned : Nat) → Session → History → Prop
  /-- What becomes of a session while an activity is suspended. -/
  Rely : (pinned : Nat) → (before after : Session) → Prop
  /-- What an activity says at its end, of the session then and the history before that end. -/
  Report : Record → Session → History → Prop
  rely_refl : ∀ pinned session, Rely pinned session session
  rely_trans : ∀ {pinned before between after},
    Rely pinned before between → Rely pinned between after → Rely pinned before after

namespace Outline

variable (outline : Outline) (pinned : Nat)

/-- How a suspended activity finds things, compared to when it asked. -/
def Since (request : Request) (before : Session) (earlier : History) (after : Session) (later : History) : Prop :=
  if isQuiet request then after = before ∧ later = earlier else outline.Rely pinned before after

/-- How an activity finds things when its request is replied to. -/
def Resumes (request : Request) (before : Session) (earlier : History) (after : Session) (later : History) : Prop :=
  request ≠ .waitForLock ∧ outline.Holds pinned after later ∧ outline.Since pinned request before earlier after later

/-- An interaction ends as it should, whatever replies it gets and whatever runs meanwhile within the outline. -/
def Achieves {α : Type} : Interaction collaborators Session α → List Asked → History →
    (Session → List Asked → History → α → Prop) → Prop
  | .done session value, asked, history, post => post session asked history value
  | .ask session request resume, asked, history, post =>
    outline.Holds pinned session (.asked request :: history) ∧
      ∀ session' history' reply, outline.Resumes pinned request session (.asked request :: history) session' history' →
        Achieves (resume session' reply) (⟨session, request⟩ :: asked) (.replied request reply :: history') post

variable {outline pinned}

theorem achieves_andThen {α β : Type} {interaction : Interaction collaborators Session α} {next : α → Operation β}
    {asked : List Asked} {history : History} {post : Session → List Asked → History → β → Prop} :
    outline.Achieves pinned (interaction.andThen next) asked history post ↔
      outline.Achieves pinned interaction asked history fun session asked history value =>
        outline.Achieves pinned (next value session) asked history post := by
  induction interaction generalizing asked history with
  | done session value => exact Iff.rfl
  | ask session request resume ih =>
    refine and_congr_right fun _ => ?_
    exact forall₃_congr fun session' history' reply => imp_congr_right fun _ => ih session' reply

/-! ### Steps of operations -/

section

variable {α β : Type} {session : Session} {asked : List Asked} {history : History}
  {post : Session → List Asked → History → α → Prop}

theorem achieves_bind {program : Operation β} {next : β → Operation α} :
    outline.Achieves pinned ((program >>= next) session) asked history post ↔
      outline.Achieves pinned (program session) asked history fun session asked history value =>
        outline.Achieves pinned (next value session) asked history post :=
  achieves_andThen

theorem achieves_pure {value : α} :
    outline.Achieves pinned ((pure value : Operation α) session) asked history post ↔
      post session asked history value :=
  Iff.rfl

theorem achieves_get {post : Session → List Asked → History → Session → Prop} :
    outline.Achieves pinned ((get : Operation Session) session) asked history post ↔
      post session asked history session :=
  Iff.rfl

theorem achieves_modify {change : Session → Session} {post : Session → List Asked → History → Unit → Prop} :
    outline.Achieves pinned ((modify change : Operation Unit) session) asked history post ↔
      post (change session) asked history () :=
  Iff.rfl

theorem achieves_modifyGet {change : Session → α × Session} :
    outline.Achieves pinned ((modifyGet change : Operation α) session) asked history post ↔
      post (change session).2 asked history (change session).1 :=
  Iff.rfl

theorem achieves_ask {request : Request} {post : Session → List Asked → History → Reply request → Prop} :
    outline.Achieves pinned ((Session.ask request : Operation _) session) asked history post ↔
      outline.Holds pinned session (.asked request :: history) ∧
        ∀ session' history' reply,
          outline.Resumes pinned request session (.asked request :: history) session' history' →
            post session' (⟨session, request⟩ :: asked) (.replied request reply :: history') reply :=
  Iff.rfl

theorem achieves_ite {condition : Prop} [Decidable condition] {program program' : Operation α} :
    outline.Achieves pinned ((if condition then program else program') session) asked history post ↔
      (condition → outline.Achieves pinned (program session) asked history post) ∧
        (¬condition → outline.Achieves pinned (program' session) asked history post) := by
  split <;> simp [*]

end

/-! ### Suspended activities -/

theorem Resumes.holds {request : Request} {before after : Session} {earlier later : History}
    (hback : outline.Resumes pinned request before earlier after later) : outline.Holds pinned after later :=
  hback.2.1

theorem Resumes.rely {request : Request} {before after : Session} {earlier later : History}
    (hback : outline.Resumes pinned request before earlier after later) (hloud : isQuiet request = false) :
    outline.Rely pinned before after := by
  have hsince := hback.2.2
  rwa [Since, if_neg (by simp [hloud])] at hsince

theorem Resumes.quiet {request : Request} {before after : Session} {earlier later : History}
    (hback : outline.Resumes pinned request before earlier after later) (hquiet : isQuiet request = true) :
    after = before ∧ later = earlier := by
  have hsince := hback.2.2
  rwa [Since, if_pos hquiet] at hsince

variable (outline)

/-- What an activity owes at its end, when so many handles were in use before it. -/
def Owes (activity : Activity) (entry : Session) (pinned : Nat) (session : Session) (asked : List Asked)
    (history : History) (result : activity.Result) : Prop :=
  outline.Holds pinned session (.ended ⟨activity, entry, asked, result⟩ :: history) ∧
    outline.Rely pinned entry session ∧ outline.Report ⟨activity, entry, asked, result⟩ session history

/-- An activity keeps to the outline wherever it may begin. -/
def MetBy (activity : Activity) : Prop :=
  ∀ (pinned : Nat) (session : Session) (history : History),
    outline.Holds pinned session history → activity.hasHandle pinned session.handles →
      outline.Achieves (activity.pins pinned) (activity.program session) [] (.began activity :: history)
        (outline.Owes activity session pinned)

def Met : Prop := ∀ activity, outline.MetBy activity

/-- Each suspended activity still ends as it should, and leaves those below it as they should be found. -/
def Suspended : Session → History → List Frame → Prop
  | _, _, [] => True
  | session, history, frame :: frames =>
    (∃ before earlier, outline.Since (Native.pinned (frame :: frames)) frame.request before earlier session history ∧
      ∀ session' history' reply,
        outline.Resumes (Native.pinned (frame :: frames)) frame.request before earlier session' history' →
          outline.Achieves (Native.pinned (frame :: frames)) (frame.resume session' reply) frame.asked
            (.replied frame.request reply :: history')
            (outline.Owes frame.activity frame.entry (Native.pinned frames))) ∧
      ∀ session' history', outline.Rely (Native.pinned frames) frame.entry session' →
        Suspended session' history' frames

/-- A moment that keeps to the outline. -/
structure Fits (moment : Moment) : Prop where
  holds : outline.Holds (Native.pinned moment.frames) moment.session moment.history
  suspended : outline.Suspended moment.session moment.history moment.frames
  report : ∀ record earlier, moment.history = .ended record :: earlier → outline.Report record moment.session earlier

variable {outline}

theorem since_refl (pinned : Nat) (request : Request) (session : Session) (history : History) :
    outline.Since pinned request session history session history := by
  rw [Since]
  split
  · exact ⟨rfl, rfl⟩
  · exact outline.rely_refl pinned session

/-- What may begin while the topmost activity is suspended leaves it suspended as it was. -/
theorem Suspended.of_rely {session session' : Session} {history : History} {frames : List Frame} (history' : History)
    (hsuspended : outline.Suspended session history frames)
    (hnotQuiet : ∀ frame ∈ frames.head?, isQuiet frame.request = false)
    (hrely : outline.Rely (Native.pinned frames) session session') : outline.Suspended session' history' frames := by
  cases frames with
  | nil => trivial
  | cons frame frames =>
    obtain ⟨⟨before, earlier, hsince, hresume⟩, hbelow⟩ := hsuspended
    have hloud : ¬ isQuiet frame.request := by simp [hnotQuiet frame rfl]
    rw [Since, if_neg hloud] at hsince
    refine ⟨⟨before, earlier, ?_, hresume⟩, hbelow⟩
    rw [Since, if_neg hloud]
    exact outline.rely_trans hsince hrely

theorem fits_advance {activity : Activity} {entry : Session} {asked : List Asked} {frames : List Frame}
    {history : History} {interaction : Interaction collaborators Session activity.Result}
    (hachieves : outline.Achieves (activity.pins (Native.pinned frames)) interaction asked history
      (outline.Owes activity entry (Native.pinned frames)))
    (hbelow : ∀ session' history', outline.Rely (Native.pinned frames) entry session' →
      outline.Suspended session' history' frames) :
    outline.Fits (Moment.advance activity entry asked frames history interaction) := by
  cases interaction with
  | done session result =>
    obtain ⟨hholds, hrely, hreport⟩ := hachieves
    refine ⟨hholds, hbelow _ _ hrely, ?_⟩
    intro record earlier hended
    obtain ⟨hrecord, rfl⟩ := List.cons.inj hended
    cases hrecord
    exact hreport
  | ask session request resume =>
    obtain ⟨hholds, hresume⟩ := hachieves
    refine ⟨hholds, ⟨⟨session, _, since_refl _ _ _ _, hresume⟩, hbelow⟩, ?_⟩
    intro record earlier hended
    cases (List.cons.inj hended).1

theorem not_isQuiet_of_admits {request : Request} {activity : Activity} (hadmits : admits request activity = true) :
    isQuiet request = false := by
  cases request <;> cases activity <;> first | rfl | cases hadmits

theorem fits_begin {moment : Moment} {activity : Activity} (hmet : outline.MetBy activity)
    (hfits : outline.Fits moment) (hbegin : moment.mayBegin activity = true) :
    outline.Fits (moment.begin activity) := by
  rw [Moment.mayBegin, Bool.and_eq_true] at hbegin
  obtain ⟨hhandle, hadmits⟩ := hbegin
  apply fits_advance (hmet _ moment.session moment.history hfits.holds hhandle)
  intro session' history' hrely
  refine hfits.suspended.of_rely history' ?_ hrely
  intro frame hframe
  cases hframes : moment.frames with
  | nil =>
    rw [hframes] at hframe
    cases hframe
  | cons top frames =>
    rw [hframes] at hframe hadmits
    cases hframe
    exact not_isQuiet_of_admits hadmits

theorem fits_reply {session : Session} {frame : Frame} {frames : List Frame} {history : History}
    (hfits : outline.Fits ⟨session, frame :: frames, history⟩) (hlock : frame.request ≠ .waitForLock)
    (reply : Reply frame.request) :
    outline.Fits (Moment.advance frame.activity frame.entry frame.asked frames (.replied frame.request reply :: history)
      (frame.resume session reply)) := by
  obtain ⟨⟨before, earlier, hsince, hresume⟩, hbelow⟩ := hfits.suspended
  exact fits_advance (hresume session history reply ⟨hlock, hfits.holds, hsince⟩) hbelow

theorem fits_move? {moment moment' : Moment} {move : Move}
    (hmet : ∀ activity, move = .begin activity → outline.MetBy activity) (hfits : outline.Fits moment)
    (hmove : moment.move? move = some moment') : outline.Fits moment' := by
  cases move with
  | begin activity =>
    rw [Moment.move?] at hmove
    split at hmove
    · rename_i hbegin
      cases hmove
      exact fits_begin (hmet activity rfl) hfits hbegin
    · cases hmove
  | reply request reply =>
    obtain ⟨session, frames, history⟩ := moment
    cases frames with
    | nil => cases hmove
    | cons frame frames =>
      simp only [Moment.move?] at hmove
      split at hmove
      · rename_i hrequest
        obtain ⟨rfl, hlock⟩ := hrequest
        cases hmove
        exact fits_reply hfits hlock reply
      · cases hmove

/-- Every run keeps to an outline that all activities meet and its first session satisfies. -/
theorem Met.fits_from (hmet : outline.Met) {start : Session} (hstart : outline.Holds 0 start []) {moment : Moment}
    (hreach : ReachableFrom start moment) : outline.Fits moment := by
  obtain ⟨moves, hrun⟩ := hreach
  refine Moment.run?_preserves (fun _ _ _ => fits_move? fun activity _ => hmet activity) ?_ hrun
  exact ⟨hstart, trivial, fun _ _ hended => by cases hended⟩

theorem Met.fits (hmet : outline.Met) {setting : Setting} (hinitial : outline.Holds 0 (Session.ofSetting setting) [])
    {moment : Moment} (hreach : Reachable setting moment) : outline.Fits moment :=
  hmet.fits_from hinitial hreach

/-! ### One outline on top of another -/

/-- Both outlines at once. -/
def and (first second : Outline) : Outline where
  Holds pinned session history := first.Holds pinned session history ∧ second.Holds pinned session history
  Rely pinned before after := first.Rely pinned before after ∧ second.Rely pinned before after
  Report record session history := first.Report record session history ∧ second.Report record session history
  rely_refl pinned session := ⟨first.rely_refl pinned session, second.rely_refl pinned session⟩
  rely_trans hfirst hthen := ⟨first.rely_trans hfirst.1 hthen.1, second.rely_trans hfirst.2 hthen.2⟩

section

variable {first second : Outline} {pinned : Nat}

theorem Resumes.of_and {request : Request} {before after : Session} {earlier later : History}
    (hback : (first.and second).Resumes pinned request before earlier after later) :
    first.Resumes pinned request before earlier after later ∧
      second.Resumes pinned request before earlier after later := by
  cases hquiet : isQuiet request with
  | true =>
    have hsame := hback.quiet hquiet
    refine ⟨⟨hback.1, hback.holds.1, ?_⟩, hback.1, hback.holds.2, ?_⟩ <;> rwa [Since, if_pos hquiet]
  | false =>
    have hrely := hback.rely hquiet
    have hloud : ¬isQuiet request := by simp [hquiet]
    refine ⟨⟨hback.1, hback.holds.1, ?_⟩, hback.1, hback.holds.2, ?_⟩ <;> rw [Since, if_neg hloud]
    · exact hrely.1
    · exact hrely.2

theorem Achieves.and {α : Type} {interaction : Interaction collaborators Session α} {asked : List Asked}
    {history : History} {post post' : Session → List Asked → History → α → Prop}
    (hfirst : first.Achieves pinned interaction asked history post)
    (hsecond : second.Achieves pinned interaction asked history post') :
    (first.and second).Achieves pinned interaction asked history fun session asked history value =>
      post session asked history value ∧ post' session asked history value := by
  induction interaction generalizing asked history with
  | done session value => exact ⟨hfirst, hsecond⟩
  | ask session request resume ih =>
    refine ⟨⟨hfirst.1, hsecond.1⟩, ?_⟩
    intro session' history' reply hback
    exact ih _ _ (hfirst.2 _ _ _ hback.of_and.1) (hsecond.2 _ _ _ hback.of_and.2)

theorem Achieves.mono {α : Type} {interaction : Interaction collaborators Session α} {asked : List Asked}
    {history : History} {post post' : Session → List Asked → History → α → Prop}
    (hachieves : first.Achieves pinned interaction asked history post)
    (hpost : ∀ session asked history value, post session asked history value → post' session asked history value) :
    first.Achieves pinned interaction asked history post' := by
  induction interaction generalizing asked history with
  | done session value => exact hpost _ _ _ _ hachieves
  | ask session request resume ih => exact ⟨hachieves.1, fun _ _ _ hback => ih _ _ (hachieves.2 _ _ _ hback)⟩

/-- A second outline on top of one that is met: what activities owe to the first is known at their end. -/
theorem Met.and (hmet : first.Met)
    (hsecond : ∀ (activity : Activity) (pinned : Nat) (session : Session) (history : History),
      second.Holds pinned session history → activity.hasHandle pinned session.handles →
        second.Achieves (activity.pins pinned) (activity.program session) [] (.began activity :: history)
          fun session' asked history' result =>
            first.Owes activity session pinned session' asked history' result →
              second.Owes activity session pinned session' asked history' result) :
    (first.and second).Met := by
  intro activity pinned session history hholds hhandle
  refine ((hmet activity pinned session history hholds.1 hhandle).and
    (hsecond activity pinned session history hholds.2 hhandle)).mono ?_
  rintro session' asked history' result ⟨howed, howes⟩
  obtain ⟨hholds', hrely, hreport⟩ := howes howed
  exact ⟨⟨howed.1, hholds'⟩, ⟨howed.2.1, hrely⟩, howed.2.2, hreport⟩

end

end Outline

end ContentProtection.Native
