import ContentProtection.Proofs.Interaction
import ContentProtection.Proofs.Native.Run

/-!
# The course of an activity

A history mixes the entries of all activities. Those of one activity alone, from its beginning on, are its course: what it asked for, what the replies were, and how it ended. Every move makes one step in the course of one activity, up to its next request or its end; conduct is what can be said of such a step, by the course so far and by the session before and after it. When each activity conducts itself so wherever it begins and whatever it finds after its requests, every move of every run is such a step.
-/

namespace ContentProtection.Native

open ContentProtection.Session (Reply Request collaborators)

/-! ### Courses -/

namespace History

/-- The course of the activity that is suspended below so many others, latest first. -/
def course : (depth : Nat) → History → List Entry
  | _, [] => []
  | depth, .ended _ :: earlier => course (depth + 1) earlier
  | 0, .began activity :: _ => [.began activity]
  | 0, .asked request :: earlier => .asked request :: course 0 earlier
  | 0, .replied request reply :: earlier => .replied request reply :: course 0 earlier
  | depth + 1, .began _ :: earlier => course depth earlier
  | depth + 1, .asked _ :: earlier => course (depth + 1) earlier
  | depth + 1, .replied _ _ :: earlier => course (depth + 1) earlier

/-- The course of the activity that made the last entry. -/
def lastCourse : History → List Entry
  | .ended record :: earlier => .ended record :: course 0 earlier
  | history => course 0 history

end History

/-! ### Moves -/

/-- What a move goes on with: an activity, the frames below it, and the entry that says so. -/
inductive Starts (moment : Moment) (activity : Activity) (below : List Frame) : Move → Entry → Prop
  | begun (hframes : moment.frames = below) (hbegin : moment.mayBegin activity = true) :
    Starts moment activity below (.begin activity) (.began activity)
  | replied (frame : Frame) (reply : Reply frame.request) (hactivity : frame.activity = activity)
    (hframes : moment.frames = frame :: below) (hlock : frame.request ≠ .waitForLock) :
    Starts moment activity below (.reply frame.request reply) (.replied frame.request reply)

/-- Where a move stops: the activity is over or suspended again. -/
inductive Stops (moment : Moment) (activity : Activity) (below : List Frame) : Entry → Prop
  | ended (record : Record) (hactivity : record.activity = activity) (hframes : moment.frames = below) :
    Stops moment activity below (.ended record)
  | asked (frame : Frame) (hactivity : frame.activity = activity) (hframes : moment.frames = frame :: below) :
    Stops moment activity below (.asked frame.request)

/-- A move, with the activity that makes a step by it, the frames below that activity, and the two entries it adds. -/
structure Moment.Step (moment : Moment) (move : Move) (moment' : Moment) (activity : Activity) (below : List Frame)
    (first last : Entry) : Prop where
  starts : Starts moment activity below move first
  stops : Stops moment' activity below last
  history_eq : moment'.history = last :: first :: moment.history

/-! ### Interactions -/

/-- Each stop of an interaction is as it should be, given the course so far, what was asked for, and the session when the step began; and so is its end. Nothing is known of what it finds when a reply comes. -/
def Proceeds {α : Type} (stop : List Entry → Session → Session → Prop) :
    Interaction collaborators Session α → List Entry → List Asked → Session →
      (List Entry → List Asked → Session → Session → α → Prop) → Prop
  | .done after value, course, asked, before, post => post course asked before after value
  | .ask after request resume, course, asked, before, post =>
    stop (.asked request :: course) before after ∧
      (request ≠ .waitForLock → ∀ between reply,
        Proceeds stop (resume between reply) (.replied request reply :: .asked request :: course)
          (⟨after, request⟩ :: asked) between post)

section

variable {α β : Type} {stop : List Entry → Session → Session → Prop} {session before : Session} {course : List Entry}
  {asked : List Asked}

theorem proceeds_andThen {interaction : Interaction collaborators Session α} {next : α → Operation β}
    {post : List Entry → List Asked → Session → Session → β → Prop} :
    Proceeds stop (interaction.andThen next) course asked before post ↔
      Proceeds stop interaction course asked before fun course asked before after value =>
        Proceeds stop (next value after) course asked before post := by
  induction interaction generalizing course asked before with
  | done after value => exact Iff.rfl
  | ask after request resume ih =>
    exact and_congr_right fun _ => forall_congr' fun _ => forall₂_congr fun between reply => ih between reply

theorem proceeds_bind {program : Operation α} {next : α → Operation β}
    {post : List Entry → List Asked → Session → Session → β → Prop} :
    Proceeds stop ((program >>= next) session) course asked before post ↔
      Proceeds stop (program session) course asked before fun course asked before after value =>
        Proceeds stop (next value after) course asked before post :=
  proceeds_andThen

theorem proceeds_pure {value : α} {post : List Entry → List Asked → Session → Session → α → Prop} :
    Proceeds stop ((pure value : Operation α) session) course asked before post ↔
      post course asked before session value :=
  Iff.rfl

theorem proceeds_get {post : List Entry → List Asked → Session → Session → Session → Prop} :
    Proceeds stop ((get : Operation Session) session) course asked before post ↔
      post course asked before session session :=
  Iff.rfl

theorem proceeds_modify {change : Session → Session}
    {post : List Entry → List Asked → Session → Session → Unit → Prop} :
    Proceeds stop ((modify change : Operation Unit) session) course asked before post ↔
      post course asked before (change session) () :=
  Iff.rfl

theorem proceeds_modifyGet {change : Session → α × Session}
    {post : List Entry → List Asked → Session → Session → α → Prop} :
    Proceeds stop ((modifyGet change : Operation α) session) course asked before post ↔
      post course asked before (change session).2 (change session).1 :=
  Iff.rfl

theorem proceeds_ask {request : Request}
    {post : List Entry → List Asked → Session → Session → Reply request → Prop} :
    Proceeds stop ((Session.ask request : Operation _) session) course asked before post ↔
      stop (.asked request :: course) before session ∧ (request ≠ .waitForLock → ∀ between reply,
        post (.replied request reply :: .asked request :: course) (⟨session, request⟩ :: asked) between between
          reply) :=
  Iff.rfl

theorem proceeds_ite {condition : Prop} [Decidable condition] {program program' : Operation α}
    {post : List Entry → List Asked → Session → Session → α → Prop} :
    Proceeds stop ((if condition then program else program') session) course asked before post ↔
      (condition → Proceeds stop (program session) course asked before post) ∧
        (¬condition → Proceeds stop (program' session) course asked before post) := by
  split <;> simp [*]

theorem Proceeds.and {stop' : List Entry → Session → Session → Prop} {interaction : Interaction collaborators Session α}
    {post post' : List Entry → List Asked → Session → Session → α → Prop}
    (hfirst : Proceeds stop interaction course asked before post)
    (hsecond : Proceeds stop' interaction course asked before post') :
    Proceeds (fun course before after => stop course before after ∧ stop' course before after) interaction course asked
      before fun course asked before after value =>
        post course asked before after value ∧ post' course asked before after value := by
  induction interaction generalizing course asked before with
  | done after value => exact ⟨hfirst, hsecond⟩
  | ask after request resume ih =>
    refine ⟨⟨hfirst.1, hsecond.1⟩, ?_⟩
    intro hlock between reply
    exact ih between reply (hfirst.2 hlock between reply) (hsecond.2 hlock between reply)

theorem Proceeds.mono {stop' : List Entry → Session → Session → Prop}
    {interaction : Interaction collaborators Session α}
    {post post' : List Entry → List Asked → Session → Session → α → Prop}
    (hproceeds : Proceeds stop interaction course asked before post)
    (hstop : ∀ course before after, stop course before after → stop' course before after)
    (hpost : ∀ course asked before after value, post course asked before after value →
      post' course asked before after value) : Proceeds stop' interaction course asked before post' := by
  induction interaction generalizing course asked before with
  | done after value => exact hpost _ _ _ _ _ hproceeds
  | ask after request resume ih =>
    exact ⟨hstop _ _ _ hproceeds.1, fun hlock between reply => ih between reply (hproceeds.2 hlock between reply)⟩

theorem proceeds_of_forall {interaction : Interaction collaborators Session α}
    {post : List Entry → List Asked → Session → Session → α → Prop}
    (hstop : ∀ course before after, stop course before after)
    (hpost : ∀ course asked before after value, post course asked before after value) :
    Proceeds stop interaction course asked before post := by
  induction interaction generalizing course asked before with
  | done after value => exact hpost _ _ _ _ _
  | ask after request resume ih => exact ⟨hstop _ _ _, fun _ between reply => ih between reply⟩

/-- An interaction within bounds proceeds as it should when what is known between its requests follows from them. -/
theorem proceeds_of_within {keeps : Session → Session → Prop} {asks : Request → Prop} {returns : α → Prop}
    {interaction : Interaction collaborators Session α}
    {post : List Entry → List Asked → Session → Session → α → Prop} (known : List Entry → Session → Session → Prop)
    (hwithin : interaction.Within keeps asks returns session) (hstart : known course before session)
    (hkeep : ∀ course before between after, known course before between → keeps between after →
      known course before after)
    (hstop : ∀ request course before after, asks request → known course before after →
      stop (.asked request :: course) before after)
    (hreply : ∀ request reply course between, asks request → request ≠ .waitForLock →
      known (.replied request reply :: .asked request :: course) between between)
    (hpost : ∀ course asked before after value, known course before after → returns value →
      post course asked before after value) :
    Proceeds stop interaction course asked before post := by
  induction interaction generalizing course asked before session with
  | done after value => exact hpost _ _ _ _ _ (hkeep _ _ _ _ hstart hwithin.1) hwithin.2
  | ask after request resume ih =>
    obtain ⟨hafter, hrequest, hresume⟩ := hwithin
    refine ⟨hstop _ _ _ _ hrequest (hkeep _ _ _ _ hstart hafter), ?_⟩
    intro hlock between reply
    exact ih between reply (hresume between reply) (hreply _ _ _ _ hrequest hlock)

end

/-! ### Conduct -/

/-- What can be said of a step of an activity: by its course so far, at whose head it stops, and by the session before and after. -/
abbrev Conduct := Activity → List Entry → Session → Session → Prop

variable {conduct : Conduct}

/-- How an activity ends. -/
def Conduct.Ends (conduct : Conduct) (activity : Activity) (entry : Session) (course : List Entry)
    (asked : List Asked) (before after : Session) (result : activity.Result) : Prop :=
  conduct activity (.ended ⟨activity, entry, asked, result⟩ :: course) before after

/-- An activity conducts itself so wherever it begins. -/
def Conduct.KeptBy (conduct : Conduct) (activity : Activity) : Prop :=
  ∀ session, Proceeds (conduct activity) (activity.program session) [.began activity] [] session
    (conduct.Ends activity session)

theorem Conduct.KeptBy.and {conduct' : Conduct} {activity : Activity} (hfirst : conduct.KeptBy activity)
    (hsecond : conduct'.KeptBy activity) :
    Conduct.KeptBy (fun activity course before after =>
      conduct activity course before after ∧ conduct' activity course before after) activity :=
  fun session => (hfirst session).and (hsecond session)

theorem Conduct.KeptBy.mono {conduct' : Conduct} {activity : Activity} (hkept : conduct.KeptBy activity)
    (hweaker : ∀ course before after, conduct activity course before after → conduct' activity course before after) :
    conduct'.KeptBy activity :=
  fun session => (hkept session).mono hweaker fun _ _ _ _ _ => hweaker _ _ _

/-- Conduct that follows from what an operation does to the session from one request to the next. -/
theorem Conduct.keptBy_of_within {keeps : Session → Session → Prop} [IsPreorder Session keeps] {asks : Request → Prop}
    {activity : Activity} {returns : activity.Result → Prop}
    (hwithin : Program.Within keeps asks returns activity.program)
    (hconduct : ∀ course before after, keeps before after → conduct activity course before after) :
    conduct.KeptBy activity := by
  intro session
  refine proceeds_of_within (fun _ => keeps) (hwithin session) (Std.Refl.refl session) ?_ ?_ ?_ ?_
  · exact fun _ _ _ _ => IsTrans.trans _ _ _
  · exact fun _ _ _ _ _ hkeeps => hconduct _ _ _ hkeeps
  · exact fun _ _ _ between _ _ => Std.Refl.refl between
  · exact fun _ _ _ _ _ hkeeps _ => hconduct _ _ _ hkeeps

/-- A suspended activity has a course and goes on as it should. -/
structure Frame.Keeps (conduct : Conduct) (frame : Frame) (course : List Entry) : Prop where
  asked : ∃ earlier, course = .asked frame.request :: earlier
  began : course.getLast? = some (.began frame.activity)
  resumes : frame.request ≠ .waitForLock → ∀ between reply,
    Proceeds (conduct frame.activity) (frame.resume between reply) (.replied frame.request reply :: course) frame.asked
      between (conduct.Ends frame.activity frame.entry)

/-- Every suspended activity keeps to the conduct. -/
def KeptByFrames (conduct : Conduct) (moment : Moment) : Prop :=
  ∀ (depth : Nat) (frame : Frame), moment.frames[depth]? = some frame →
    frame.Keeps conduct (moment.history.course depth)

section

variable {moment moment' : Moment} {move : Move} {activity : Activity} {below : List Frame} {first last : Entry}

theorem Moment.Step.mem_frames (hstep : Moment.Step moment move moment' activity below first last) {frame : Frame}
    (hframe : frame ∈ below) : frame ∈ moment.frames ∧ frame ∈ moment'.frames := by
  refine ⟨?_, ?_⟩
  · cases hstep.starts with
    | begun hframes => exact hframes ▸ hframe
    | replied top reply _ hframes => exact hframes ▸ List.mem_cons_of_mem _ hframe
  · cases hstep.stops with
    | ended record _ hframes => exact hframes ▸ hframe
    | asked top _ hframes => exact hframes ▸ List.mem_cons_of_mem _ hframe

/-- Whatever is suspended after a move was so before, or is what made the move. -/
theorem Moment.Step.of_mem_frames (hstep : Moment.Step moment move moment' activity below first last) {frame : Frame}
    (hframe : frame ∈ moment'.frames) :
    frame ∈ below ∨ frame.activity = activity ∧ last = .asked frame.request := by
  cases hstep.stops with
  | ended record _ hframes => exact .inl (hframes ▸ hframe)
  | asked top htop hframes =>
    rw [hframes] at hframe
    rcases List.mem_cons.mp hframe with rfl | hframe
    · exact .inr ⟨htop, rfl⟩
    · exact .inl hframe

theorem Moment.Step.lastCourse_eq (hstep : Moment.Step moment move moment' activity below first last) :
    moment'.history.lastCourse = last :: History.course 0 (first :: moment.history) := by
  rw [hstep.history_eq]
  cases hstep.stops <;> rfl

/-- What came after a request is nothing more than before, unless the step has made the request. -/
theorem Moment.Step.since_asked (hstep : Moment.Step moment move moment' activity below first last) {request : Request}
    {later earlier : History} (hhistory : moment'.history = later ++ .asked request :: earlier) :
    later = [] ∧ moment'.history = .asked request :: earlier ∨
      ∃ before, later = last :: first :: before ∧ moment.history = before ++ .asked request :: earlier := by
  cases later with
  | nil => exact .inl ⟨rfl, hhistory⟩
  | cons _ later =>
    obtain ⟨rfl, hrest⟩ := List.cons.inj (hstep.history_eq.symm.trans hhistory)
    cases later with
    | nil => cases hstep.starts <;> cases (List.cons.inj hrest).1
    | cons _ before =>
      obtain ⟨rfl, hbefore⟩ := List.cons.inj hrest
      exact .inr ⟨before, rfl, hbefore⟩

/-- A suspended activity keeps its course, unless it makes the move. -/
theorem Moment.Step.keeps_course (hstep : Moment.Step moment move moment' activity below first last) {depth : Nat}
    {frame : Frame} (hframe : moment.frames[depth]? = some frame) :
    (∃ depth', moment'.frames[depth']? = some frame ∧
      moment'.history.course depth' = moment.history.course depth) ∨
    depth = 0 ∧ frame.activity = activity ∧ moment.frames = frame :: below ∧
      ∃ reply, first = .replied frame.request reply := by
  -- the frames below stay where they are, counted from the bottom
  have hbelow : ∀ (depth : Nat), below[depth]? = some frame → ∃ depth', moment'.frames[depth']? = some frame ∧
      moment'.history.course depth' = History.course (depth + 1) (first :: moment.history) := by
    intro depth hframe
    cases hstep.stops with
    | ended record _ hframes => exact ⟨depth, hframes ▸ hframe, by rw [hstep.history_eq]; rfl⟩
    | asked top _ hframes => exact ⟨depth + 1, hframes ▸ hframe, by rw [hstep.history_eq]; rfl⟩
  cases hstep.starts with
  | begun hframes => exact .inl (hbelow depth (hframes ▸ hframe))
  | replied top reply htop hframes =>
    rw [hframes] at hframe
    cases depth with
    | zero =>
      cases hframe
      exact .inr ⟨rfl, htop, hframes, reply, rfl⟩
    | succ depth => exact .inl (hbelow depth hframe)

/-- An activity makes a step with those below it left as they are. -/
theorem conducts_advance {entry before : Session} {asked : List Asked} {history : History}
    {interaction : Interaction collaborators Session activity.Result}
    (hproceeds : Proceeds (conduct activity) interaction (History.course 0 (first :: history)) asked before
      (conduct.Ends activity entry))
    (hbegan : (History.course 0 (first :: history)).getLast? = some (.began activity))
    (hbelow : ∀ (depth : Nat) (frame : Frame), below[depth]? = some frame →
      frame.Keeps conduct (History.course (depth + 1) (first :: history)))
    (hmoment : Moment.advance activity entry asked below (first :: history) interaction = moment') :
    ∃ last, Stops moment' activity below last ∧ moment'.history = last :: first :: history ∧
      conduct activity (last :: History.course 0 (first :: history)) before moment'.session ∧
      KeptByFrames conduct moment' := by
  subst hmoment
  cases interaction with
  | done after result => exact ⟨_, .ended ⟨activity, entry, asked, result⟩ rfl rfl, rfl, hproceeds, hbelow⟩
  | ask after request resume =>
    refine ⟨_, .asked ⟨activity, entry, ⟨after, request⟩ :: asked, request, resume⟩ rfl rfl, rfl, hproceeds.1, ?_⟩
    rintro (_ | depth) frame hframe
    · cases hframe
      refine ⟨⟨_, rfl⟩, ?_, hproceeds.2⟩
      show (Entry.asked request :: History.course 0 (first :: history)).getLast? = _
      rw [List.getLast?_cons, hbegan]
      rfl
    · exact hbelow depth frame hframe

/-- Whatever is possible is a step of some activity that keeps to the conduct. -/
theorem conducts_move? (hkeeps : ∀ activity, conduct.KeptBy activity) (hframes : KeptByFrames conduct moment)
    (hmove : moment.move? move = some moment') :
    ∃ activity below first last, Moment.Step moment move moment' activity below first last ∧
      (History.course 0 (first :: moment.history)).getLast? = some (.began activity) ∧
      conduct activity moment'.history.lastCourse moment.session moment'.session ∧ KeptByFrames conduct moment' := by
  have hsteps : ∃ activity below first last, Moment.Step moment move moment' activity below first last ∧
      (History.course 0 (first :: moment.history)).getLast? = some (.began activity) ∧
      conduct activity (last :: History.course 0 (first :: moment.history)) moment.session moment'.session ∧
      KeptByFrames conduct moment' := by
    cases move with
    | begin activity =>
      rw [Moment.move?] at hmove
      split at hmove
      · rename_i hbegin
        have hbelow : ∀ (depth : Nat) (frame : Frame), moment.frames[depth]? = some frame →
            frame.Keeps conduct (History.course (depth + 1) (.began activity :: moment.history)) := hframes
        obtain ⟨last, hstops, hhistory, hconduct, hframes'⟩ :=
          conducts_advance (hkeeps activity moment.session) rfl hbelow (Option.some.inj hmove)
        exact ⟨_, _, _, last, ⟨.begun rfl hbegin, hstops, hhistory⟩, rfl, hconduct, hframes'⟩
      · cases hmove
    | reply request reply =>
      obtain ⟨session, frames, history⟩ := moment
      cases frames with
      | nil => cases hmove
      | cons frame below =>
        simp only [Moment.move?] at hmove
        split at hmove
        · rename_i hrequest
          obtain ⟨rfl, hlock⟩ := hrequest
          have htop : frame.Keeps conduct (History.course 0 history) := hframes 0 frame rfl
          have hbegan : (History.course 0 (.replied frame.request reply :: history)).getLast? =
              some (.began frame.activity) := by
            show (Entry.replied frame.request reply :: History.course 0 history).getLast? = _
            rw [List.getLast?_cons, htop.began]
            rfl
          have hbelow : ∀ (depth : Nat) (other : Frame), below[depth]? = some other →
              other.Keeps conduct (History.course (depth + 1) (.replied frame.request reply :: history)) :=
            fun depth => hframes (depth + 1)
          obtain ⟨last, hstops, hhistory, hconduct, hframes'⟩ :=
            conducts_advance (htop.resumes hlock session reply) hbegan hbelow (Option.some.inj hmove)
          exact ⟨_, _, _, last, ⟨.replied frame reply rfl rfl hlock, hstops, hhistory⟩, hbegan, hconduct, hframes'⟩
        · cases hmove
  obtain ⟨activity, below, first, last, hstep, hbegan, hconduct, hframes'⟩ := hsteps
  rw [← hstep.lastCourse_eq] at hconduct
  exact ⟨activity, below, first, last, hstep, hbegan, hconduct, hframes'⟩

end

/-! ### Runs -/

namespace Reachable

variable {setting : Setting} {moment moment' : Moment} {move : Move}

theorem keptByFrames (hkeeps : ∀ activity, conduct.KeptBy activity) (hreach : Reachable setting moment) :
    KeptByFrames conduct moment := by
  refine induct ?_ ?_ hreach
  · intro depth frame hframe
    cases hframe
  · intro moment move moment' _ hframes hmove
    obtain ⟨_, _, _, _, _, _, _, hframes'⟩ := conducts_move? hkeeps hframes hmove
    exact hframes'

/-- Every move of a run is a step of some activity, which keeps to the conduct that all activities keep to. -/
theorem conducts (hkeeps : ∀ activity, conduct.KeptBy activity) (hreach : Reachable setting moment)
    (hmove : moment.move? move = some moment') :
    ∃ activity below first last, Moment.Step moment move moment' activity below first last ∧
      (History.course 0 (first :: moment.history)).getLast? = some (.began activity) ∧
      conduct activity moment'.history.lastCourse moment.session moment'.session := by
  obtain ⟨activity, below, first, last, hstep, hbegan, hconduct, -⟩ :=
    conducts_move? hkeeps (hreach.keptByFrames hkeeps) hmove
  exact ⟨activity, below, first, last, hstep, hbegan, hconduct⟩

/-- Every move of a run is a step of some activity. -/
theorem steps (hreach : Reachable setting moment) (hmove : moment.move? move = some moment') :
    ∃ activity below first last, Moment.Step moment move moment' activity below first last := by
  obtain ⟨activity, below, first, last, hstep, -⟩ :=
    hreach.conducts (fun _ _ => proceeds_of_forall (fun _ _ _ => trivial) fun _ _ _ _ _ => trivial) hmove
  exact ⟨activity, below, first, last, hstep⟩

/-- A request was the last entry at the moment when it was made. -/
theorem at_asked {request : Request} {earlier : History} (hreach : Reachable setting moment) :
    ∀ later, moment.history = later ++ .asked request :: earlier →
      ∃ before, Reachable setting before ∧ before.history = .asked request :: earlier := by
  refine induct ?_ ?_ hreach
  · intro later hhistory
    simp [Moment.initial] at hhistory
  intro moment move moment' hreach hbefore hmove later hhistory
  obtain ⟨activity, below, first, last, hstep⟩ := hreach.steps hmove
  rcases hstep.since_asked hhistory with ⟨-, hasked⟩ | ⟨before, -, hhistory⟩
  · exact ⟨moment', hreach.move hmove, hasked⟩
  · exact hbefore before hhistory

/-- What has just been asked for is what the topmost activity awaits. -/
theorem asked_by (hreach : Reachable setting moment) :
    ∀ request (earlier : History), moment.history = .asked request :: earlier →
      ∃ frame below, moment.frames = frame :: below ∧ frame.request = request := by
  refine induct (fun _ _ hasked => by cases hasked) ?_ hreach
  intro moment move moment' hreach _ hmove request earlier hasked
  obtain ⟨activity, below, first, last, hstep⟩ := hreach.steps hmove
  obtain ⟨rfl, -⟩ := List.cons.inj (hstep.history_eq.symm.trans hasked)
  cases hstep.stops with
  | asked frame _ hframes => exact ⟨frame, below, hframes, rfl⟩

end Reachable

end ContentProtection.Native
