import ContentProtection.Proofs.Native.Alike

/-!
# Runs of twins

Two moments with twins, the same activities suspended in each, and the same things shown since some point of each history. Every move of a key exchange that is possible in one is possible in the other, with the numbers of the native sessions changed, and leads to such moments again. So what is shown of the rest of a run does not depend on what was before.
-/

namespace ContentProtection.Native

open ContentProtection.Session (Reply Request collaborators)

variable {renumber : Nat → Nat}

/-! ### What is shown -/

/-- The call that has ended with an entry, and its result. -/
def Entry.result? : Entry → Option (Σ made : Call, made.Result)
  | .ended ⟨.call made, _, _, result⟩ => some ⟨made, result⟩
  | _ => none

/-- All results of calls, latest first. -/
def History.results (history : History) : List (Σ made : Call, made.Result) := history.filterMap Entry.result?

/-- What an entry shows: the result of a call, and the state that has been set. -/
def Entry.shown (entry : Entry) : Option (Σ made : Call, made.Result) × Option KeyState :=
  (entry.result?, entry.state?)

/-- Histories that show the same things since they were at some point each. -/
def ShowSame (base base' history history' : History) : Prop :=
  ∃ since since' : History, history = since ++ base ∧ history' = since' ++ base' ∧
    since'.map Entry.shown = since.map Entry.shown

theorem ShowSame.refl (base base' : History) : ShowSame base base' base base' := ⟨[], [], rfl, rfl, rfl⟩

theorem ShowSame.cons {base base' history history' : History} {entry entry' : Entry}
    (hsame : ShowSame base base' history history') (hshown : entry'.shown = entry.shown) :
    ShowSame base base' (entry :: history) (entry' :: history') := by
  obtain ⟨since, since', rfl, rfl, hsince⟩ := hsame
  refine ⟨entry :: since, entry' :: since', rfl, rfl, ?_⟩
  rw [List.map_cons, List.map_cons, hshown, hsince]

theorem shown_asked (request : Request) :
    (Entry.asked (renumbered renumber request)).shown = (Entry.asked request).shown := by
  cases request <;> rfl

theorem shown_replied (request : Request) (reply : Reply request) :
    (Entry.replied (renumbered renumber request) (sameReply renumber request reply)).shown =
      (Entry.replied request reply).shown := by
  cases request with
  | createSystem => cases reply <;> rfl
  | construct => cases reply <;> rfl
  | _ => rfl

/-! ### What was asked -/

/-- Whether the last request of an activity was to construct a native session. -/
def isConstructing : List Asked → Bool
  | ⟨_, .construct _ _⟩ :: _ => true
  | _ => false

theorem isRefused_cons (session : Session) (request : Request) (asked : List Asked) :
    isRefused (⟨session, request⟩ :: asked) =
      match request with
      | .close _ => isConstructing asked
      | _ => false := by
  cases request with
  | close number =>
    -- only what was asked before a native session is closed matters, and only what kind of request it was
    cases asked with
    | nil => rfl
    | cons each asked =>
      obtain ⟨session, request⟩ := each
      cases request <;> rfl
  | _ => rfl

/-- What two activities have asked for is alike as far as refused native sessions go. -/
structure AskedAlike (asked asked' : List Asked) : Prop where
  isRefused_eq : isRefused asked' = isRefused asked
  isConstructing_eq : isConstructing asked' = isConstructing asked

theorem AskedAlike.cons {asked asked' : List Asked} (halike : AskedAlike asked asked') (session twin : Session)
    (request : Request) : AskedAlike (⟨session, request⟩ :: asked) (⟨twin, renumbered renumber request⟩ :: asked') := by
  refine ⟨?_, by cases request <;> rfl⟩
  rw [isRefused_cons, isRefused_cons]
  cases request with
  | close number => exact halike.isConstructing_eq
  | _ => rfl

theorem shown_ended {activity : Activity} {entry entry' : Session} {asked asked' : List Asked}
    (result : activity.Result) (halike : AskedAlike asked asked') :
    (Entry.ended ⟨activity, entry', asked', result⟩).shown = (Entry.ended ⟨activity, entry, asked, result⟩).shown := by
  cases activity with
  | event event => rfl
  | call made =>
    cases made with
    | generate initData customData =>
      show (_, if isRefused asked' then _ else _) = (_, if isRefused asked then _ else _)
      rw [halike.isRefused_eq]
      rfl
    | _ => rfl

/-! ### Moments side by side -/

/-- The events that are being handled during an activity. -/
def Activity.handling (activity : Activity) (handled : Nat) : Nat :=
  match activity with
  | event _ => handled + 1
  | call _ => handled

/-- The events that suspended activities handle. -/
def handled : List Frame → Nat
  | [] => 0
  | frame :: frames => frame.activity.handling (handled frames)

variable (renumber) in
/-- Suspended activities that go on together. -/
inductive Paired : List Frame → List Frame → Prop
  | nil : Paired [] []
  | cons {activity : Activity} {entry entry' : Session} {asked asked' : List Asked} {request : Request}
      {resume : Session → Reply request → Interaction collaborators Session activity.Result}
      {resume' : Session → Reply (renumbered renumber request) → Interaction collaborators Session activity.Result}
      {frames frames' : List Frame} (halike : AskedAlike asked asked')
      (hresume : ∀ (after after' : Session) (reply : Reply request),
        Twins renumber (activity.handling (handled frames)) after after' →
          Together renumber (activity.handling (handled frames)) (Rejoined renumber (handled frames) (· = ·))
            (resume after reply) (resume' after' (sameReply renumber request reply)))
      (hbelow : Paired frames frames') :
      Paired (⟨activity, entry, asked, request, resume⟩ :: frames)
        (⟨activity, entry', asked', renumbered renumber request, resume'⟩ :: frames')

variable (renumber) in
/-- Twins with the same activities under way. Their histories show the same since the points from which they are compared. -/
structure TwinMoments (base base' : History) (moment twin : Moment) : Prop where
  session : Twins renumber (handled moment.frames) moment.session twin.session
  frames : Paired renumber moment.frames twin.frames
  history : ShowSame base base' moment.history twin.history

variable {base base' : History} {moment twin moment' : Moment}

theorem twins_advance {activity : Activity} {entry entry' : Session} {asked asked' : List Asked}
    {frames frames' : List Frame} {history history' : History}
    {interaction interaction' : Interaction collaborators Session activity.Result}
    (htogether : Together renumber (activity.handling (handled frames)) (Rejoined renumber (handled frames) (· = ·))
      interaction interaction')
    (halike : AskedAlike asked asked') (hbelow : Paired renumber frames frames')
    (hhistory : ShowSame base base' history history') :
    TwinMoments renumber base base' (Moment.advance activity entry asked frames history interaction)
      (Moment.advance activity entry' asked' frames' history' interaction') := by
  cases htogether with
  | done hpost =>
    obtain ⟨htwins, rfl⟩ := hpost
    exact ⟨htwins, hbelow, hhistory.cons (shown_ended _ halike)⟩
  | ask htwins hresume =>
    exact ⟨htwins, .cons (halike.cons _ _ _) hresume hbelow, hhistory.cons (shown_asked _)⟩

/-! ### Moves side by side -/

/-- Whether a call belongs to a key exchange or to decryption. The output link may change meanwhile. -/
def Call.isExchange : Call → Bool
  | generate _ _ | keyRequest _ | process _ _ | decrypt _ _ | clear | changeOutputLink _ => true
  | _ => false

def Activity.isExchange : Activity → Bool
  | event _ => true
  | call made => made.isExchange

theorem together_program {handled : Nat} {activity : Activity} {session twin : Session}
    (hexchange : activity.isExchange = true) (htwins : Twins renumber handled session twin) :
    Together renumber (activity.handling handled) (Rejoined renumber handled (· = ·))
      (activity.program session) (activity.program twin) := by
  cases activity with
  | event event => exact together_deliver event htwins
  | call made =>
    cases made with
    | generate initData customData => exact alike_generate initData customData _ _ htwins
    | keyRequest timeout => exact alike_keyRequest timeout _ _ htwins
    | process license timeout => exact alike_process license timeout _ _ htwins
    | decrypt encryption payload => exact alike_decrypt encryption payload _ _ htwins
    | clear => exact alike_clear _ _ htwins
    | changeOutputLink link => exact .done ⟨{ htwins with outputLink_eq := rfl }, rfl⟩
    | _ => cases hexchange

theorem admits_renumbered (request : Request) (activity : Activity) :
    admits (renumbered renumber request) activity = admits request activity := by
  cases request <;> cases activity <;> rfl

theorem TwinMoments.mayBegin {activity : Activity} (htwins : TwinMoments renumber base base' moment twin)
    (hexchange : activity.isExchange = true) (hbegin : moment.mayBegin activity = true) :
    twin.mayBegin activity = true := by
  rw [Moment.mayBegin, Bool.and_eq_true] at hbegin ⊢
  refine ⟨?_, ?_⟩
  · -- giving up a handle is no part of an exchange, so how many there are does not matter
    have hhandle : 0 < twin.session.handles := Nat.zero_lt_of_lt htwins.session.lt_handles_twin
    cases activity with
    | event event => rfl
    | call made =>
      cases made with
      | release => cases hexchange
      | _ => exact decide_eq_true hhandle
  · obtain ⟨session, frames, history⟩ := moment
    obtain ⟨session', frames', history'⟩ := twin
    cases htwins.frames with
    | nil => rfl
    | cons => exact (admits_renumbered _ _).trans hbegin.2

variable (renumber) in
/-- The same move with the numbers changed. -/
def sameMove : Move → Move
  | .begin activity => .begin activity
  | .reply request reply => .reply (renumbered renumber request) (sameReply renumber request reply)

theorem renumbered_ne_waitForLock {request : Request} (hlock : request ≠ .waitForLock) :
    renumbered renumber request ≠ .waitForLock := by
  cases request <;> first | exact absurd rfl hlock | exact nofun

theorem TwinMoments.move? {move : Move} (htwins : TwinMoments renumber base base' moment twin)
    (hexchange : ∀ activity, move = .begin activity → activity.isExchange = true)
    (hmove : moment.move? move = some moment') :
    ∃ twin', twin.move? (sameMove renumber move) = some twin' ∧ TwinMoments renumber base base' moment' twin' := by
  cases move with
  | begin activity =>
    rw [Moment.move?] at hmove
    split at hmove
    · rename_i hbegin
      cases hmove
      have hactivity := hexchange activity rfl
      refine ⟨twin.begin activity, if_pos (htwins.mayBegin hactivity hbegin), ?_⟩
      exact twins_advance (together_program hactivity htwins.session) ⟨rfl, rfl⟩ htwins.frames (htwins.history.cons rfl)
    · cases hmove
  | reply request reply =>
    obtain ⟨session, frames, history⟩ := moment
    obtain ⟨session', frames', history'⟩ := twin
    cases htwins.frames with
    | nil => cases hmove
    | cons halike hresume hbelow =>
      simp only [Moment.move?] at hmove
      split at hmove
      · rename_i hrequest
        obtain ⟨rfl, hlock⟩ := hrequest
        cases hmove
        refine ⟨_, dif_pos ⟨rfl, renumbered_ne_waitForLock hlock⟩, ?_⟩
        exact twins_advance (hresume _ _ reply htwins.session) halike hbelow
          (htwins.history.cons (shown_replied _ reply))
      · cases hmove

theorem TwinMoments.run? {moves : List Move} (htwins : TwinMoments renumber base base' moment twin)
    (hexchange : ∀ activity, .begin activity ∈ moves → activity.isExchange = true)
    (hrun : moment.run? moves = some moment') :
    ∃ twin', twin.run? (moves.map (sameMove renumber)) = some twin' ∧
      TwinMoments renumber base base' moment' twin' := by
  -- the histories only grow, so the points from which they are compared stay the same
  induction moves generalizing moment twin with
  | nil =>
    cases hrun
    exact ⟨twin, rfl, htwins⟩
  | cons move moves ih =>
    obtain ⟨next, hnext, hrest⟩ := Option.bind_eq_some_iff.mp hrun
    have hfirst : ∀ activity, move = .begin activity → activity.isExchange = true := by
      rintro activity rfl
      exact hexchange activity List.mem_cons_self
    have hothers : ∀ activity, .begin activity ∈ moves → activity.isExchange = true :=
      fun activity hmem => hexchange activity (.tail _ hmem)
    obtain ⟨next', hnext', htwins'⟩ := htwins.move? hfirst hnext
    obtain ⟨twin', htwin, hend⟩ := ih htwins' hothers hrest
    refine ⟨twin', ?_, hend⟩
    rw [List.map_cons, Moment.run?_cons hnext']
    exact htwin

end ContentProtection.Native
