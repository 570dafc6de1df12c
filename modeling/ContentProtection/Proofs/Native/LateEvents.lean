import ContentProtection.Proofs.Native.Regeneration

/-!
# Events that come late

An event does not say which native session it comes from. One that an earlier native session still reports counts for the exchange that is under way: its challenge is handed out, and its key is asked about at the open native session. Only the next native session makes an end of that, since events change nothing that outlasts the making of a native session.
-/

namespace ContentProtection.Native

open ContentProtection.Session (Request ask)
open Outline

/-! ### What events leave as it is -/

/-- What of a session outlasts the making of a native session. -/
structure Equipment where
  setting : Setting
  memory : Option MemoryId
  outputProtection : Bool
  outputLink : OutputLink
  constructed : Nat

def Session.equipment (session : Session) : Equipment :=
  { setting := session.setting
    memory := session.memory
    outputProtection := session.outputProtection
    outputLink := session.outputLink
    constructed := session.constructed }

/-- The outline for events alone. Each has a handle of its own. -/
def equipped (equipment : Equipment) (handles : Nat) : Outline where
  Holds pinned session _ := session.equipment = equipment ∧ session.handles = handles + pinned
  Rely _ _ _ := True
  Report _ _ _ := True
  rely_refl _ _ := trivial
  rely_trans _ _ := trivial

variable {equipment : Equipment} {handles pinned : Nat} {session : Session} {asked : List Asked} {history : History}

theorem equipped_ask {request : Request}
    {post : Session → List Asked → History → ContentProtection.Session.Reply request → Prop}
    (hholds : (equipped equipment handles).Holds pinned session history)
    (hnext : ∀ (session' : Session) asked' (history' : History) reply,
      (equipped equipment handles).Holds pinned session' history' → post session' asked' history' reply) :
    (equipped equipment handles).Achieves pinned ((ask request : Operation _) session) asked history post :=
  achieves_ask.mpr ⟨hholds, fun _ _ _ hback => hnext _ _ _ _ hback.holds⟩

theorem equipped_handle {event : Event} {post : Session → List Asked → History → Unit → Prop}
    (hholds : (equipped equipment handles).Holds pinned session history)
    (hnext : ∀ (session' : Session) asked' (history' : History),
      (equipped equipment handles).Holds pinned session' history' → post session' asked' history' ()) :
    (equipped equipment handles).Achieves pinned (handle event session) asked history post := by
  cases event with
  | challenge url payload =>
    refine achieves_bind.mpr (achieves_get.mpr (achieves_ite.mpr ⟨fun _ => achieves_ite.mpr ⟨?_, ?_⟩, fun _ => ?_⟩))
    · intro _
      exact equipped_ask hholds fun _ _ _ _ => hnext _ _ _
    · intro _
      exact hnext _ _ _ hholds
    · refine achieves_bind.mpr (achieves_modify.mpr (achieves_bind.mpr (achieves_modify.mpr
        (achieves_ite.mpr ⟨?_, ?_⟩))))
      · intro _
        exact equipped_ask hholds fun _ _ _ _ => hnext _ _ _
      · intro _
        exact hnext _ _ _ hholds
  | keyUpdate keyId =>
    refine achieves_bind.mpr (achieves_get.mpr ?_)
    cases if session.isLocked then none else session.opened with
    | none => exact hnext _ _ _ hholds
    | some number =>
      refine achieves_bind.mpr (equipped_ask hholds ?_)
      intro session' asked' history' status hholds'
      exact hnext _ _ _ hholds'
  | error message => exact hnext _ _ _ hholds
  | keysUpdated => exact hnext _ _ _ hholds

theorem equipped_met (event : Event) (hhandles : 0 < handles) :
    (equipped equipment handles).MetBy (.event event) := by
  rintro pinned session history ⟨hequipment, hcount⟩ -
  show (equipped equipment handles).Achieves (pinned + 1) (deliver event session) _ _ _
  rw [deliver_of_handle event (by omega)]
  have hretained : (equipped equipment handles).Holds (pinned + 1) { session with handles := session.handles + 1 }
      (.began (.event event) :: history) :=
    ⟨hequipment, congrArg (· + 1) hcount⟩
  refine achieves_andThen.mpr (equipped_handle hretained ?_)
  rintro after asked' history' ⟨hequipment', hcount'⟩
  rw [release_of_shared (by omega)]
  exact ⟨⟨hequipment', congrArg (· - 1) hcount'⟩, trivial, trivial⟩

/-- Events by themselves leave the equipment and, once all of them are over, the handles. -/
theorem equipped_after_events {moment moment' : Moment} {late : List Move} (hrest : moment.frames = [])
    (hhandle : 0 < moment.session.handles)
    (hevents : ∀ activity, .begin activity ∈ late → ∃ event, activity = .event event)
    (hrun : moment.run? late = some moment') (hrest' : moment'.frames = []) :
    moment'.session.equipment = moment.session.equipment ∧ moment'.session.handles = moment.session.handles := by
  have hfits : (equipped moment.session.equipment moment.session.handles).Fits moment' := by
    refine Moment.run?_preserves_of_mem (fun move hmem _ _ => fits_move? ?_) ?_ hrun
    · rintro activity rfl
      obtain ⟨event, rfl⟩ := hevents activity hmem
      exact equipped_met event hhandle
    · refine ⟨⟨rfl, ?_⟩, ?_, fun _ _ _ => trivial⟩
      · rw [hrest]
        rfl
      · rw [hrest]
        trivial
  obtain ⟨hequipment, hhandles⟩ := hfits.holds
  rw [hrest'] at hhandles
  exact ⟨hequipment, hhandles⟩

/-! ### Late events and the next native session -/

theorem sameMove_id (move : Move) : sameMove id move = move := by
  cases move with
  | begin activity => rfl
  | reply request reply => cases request <;> rfl

/-- Whatever events an earlier native session reports, the next native session makes them forgotten: what happens from then on shows the same as without them. -/
theorem late_events_forgotten {setting : Setting} {first second moment : Moment} {late later : List Move}
    {initData : Bytes} {customData : Option Bytes} (hreach : Reachable setting first) (hrest : first.frames = [])
    (hhandle : 0 < first.session.handles)
    (hevents : ∀ activity, .begin activity ∈ late → ∃ event, activity = .event event)
    (hlate : first.run? late = some second) (hrest' : second.frames = [])
    (hexchange : ∀ activity, .begin activity ∈ later → activity.isExchange = true)
    (hrun : first.run? (regeneration first.session initData customData ++ later) = some moment) :
    ∃ (twin : Moment) (since since' : History),
      second.run? (regeneration second.session initData customData ++ later) = some twin ∧
      moment.history = since ++ first.history ∧ twin.history = since' ++ second.history ∧
      since'.results = since.results ∧
      ((∃ entry ∈ since, entry.state? ≠ none) → twin.session.state = moment.session.state) := by
  obtain ⟨hequipment, hhandles⟩ := equipped_after_events hrest hhandle hevents hlate hrest'
  have hsame : later.map (sameMove id) = later := by
    rw [funext sameMove_id]
    exact List.map_id' later
  have hshown := shown_after_regeneration id ?_ hreach (hreach.run hlate) hrest hrest'
    (congrArg (·.setting.helper) hequipment) (congrArg (·.setting.hasSideChannel) hequipment)
    (congrArg Equipment.memory hequipment) (congrArg Equipment.outputProtection hequipment)
    (congrArg Equipment.outputLink hequipment) hhandle (hhandles ▸ hhandle) hexchange hrun
  · rwa [hsame] at hshown
  · intro more
    rw [show second.session.constructed = first.session.constructed from congrArg Equipment.constructed hequipment]
    rfl

/-- A key request after the construction that follows, which no challenge answers. -/
def movesOfFailedExchange : List Move :=
  [.reply (.construct [] none) (.ok "new"), .begin (.call (.keyRequest ⟨1000000⟩)),
    .reply (.wait .challengeReady ⟨1000000⟩) ()]

/-- A challenge and a usable key come late, and the exchange after them finds neither. -/
theorem late_events_forgotten_by_failed_exchange :
    ∃ (first second moment twin : Moment) (since since' : History), Reachable settingWithSideChannel first ∧
      first.run? [.begin (.event (.challenge "old" [1])), .begin (.event (.keyUpdate [2])),
        .reply (.queryStatus 1 [2]) .usable] = some second ∧
      second.session.slot = some ⟨[1], "old"⟩ ∧ second.session.key.status = some .usable ∧
      first.run? (regeneration first.session [] none ++ movesOfFailedExchange) = some moment ∧
      second.run? (regeneration second.session [] none ++ movesOfFailedExchange) = some twin ∧
      moment.history = since ++ first.history ∧ twin.history = since' ++ second.history ∧
      since'.results = since.results := by
  have hrun : ∃ first second moment : Moment, Reachable settingWithSideChannel first ∧ first.frames = [] ∧
      first.session.handles = 1 ∧
      first.run? [.begin (.event (.challenge "old" [1])), .begin (.event (.keyUpdate [2])),
        .reply (.queryStatus 1 [2]) .usable] = some second ∧
      second.frames = [] ∧ second.session.slot = some ⟨[1], "old"⟩ ∧ second.session.key.status = some .usable ∧
      first.run? (regeneration first.session [] none ++ movesOfFailedExchange) = some moment :=
    ⟨_, _, _, ⟨[.begin (.call (.generate [] none)),
        .reply (.createSystem settingWithSideChannel.helper.keySystem) true,
        .reply (.construct [] none) (.ok "first")], rfl⟩,
      rfl, rfl, rfl, rfl, rfl, rfl, rfl⟩
  obtain ⟨first, second, moment, hreach, hrest, hhandles, hlate, hrest', hslot, husable, hrun⟩ := hrun
  have hevents : ∀ activity, .begin activity ∈ ([.begin (.event (.challenge "old" [1])),
      .begin (.event (.keyUpdate [2])), .reply (.queryStatus 1 [2]) .usable] : List Move) →
      ∃ event, activity = .event event := by
    simp
  have hexchange : ∀ activity, .begin activity ∈ movesOfFailedExchange → activity.isExchange = true := by
    simp [movesOfFailedExchange, Activity.isExchange, Call.isExchange]
  obtain ⟨twin, since, since', htwin, hsince, hsince', hresults, -⟩ := late_events_forgotten hreach hrest (by omega)
    hevents hlate hrest' hexchange hrun
  exact ⟨first, second, moment, twin, since, since', hreach, hlate, hslot, husable, hrun, htwin, hsince, hsince',
    hresults⟩

/-- A native session that is closed reports a challenge, and a key request for the next one hands it out. -/
theorem late_challenge_handed_out :
    ∃ before late punctual : Moment, Reachable settingWithSideChannel before ∧ before.frames = [] ∧
      .closed 1 ∈ before.history.marks ∧ before.session.opened = some 2 ∧
      before.run? [.begin (.event (.challenge "old" [79, 76, 68])), .begin (.call (.keyRequest ⟨1000000⟩))] =
        some late ∧
      before.run? [.begin (.call (.keyRequest ⟨1000000⟩)), .reply (.wait .challengeReady ⟨1000000⟩) ()] =
        some punctual ∧
      late.history.results.head? = some ⟨.keyRequest ⟨1000000⟩, some ⟨⟨[79, 76, 68]⟩, "old", .licenseRequest⟩⟩ ∧
      punctual.history.results.head? = some ⟨.keyRequest ⟨1000000⟩, none⟩ ∧
      late.session.state = .pending ∧ punctual.session.state = .error :=
  ⟨_, _, _,
    ⟨[.begin (.call (.generate [] none)), .reply (.createSystem settingWithSideChannel.helper.keySystem) true,
        .reply (.construct [] none) (.ok "first"), .begin (.call (.generate [] none)), .reply (.close 1) (),
        .reply (.construct [] none) (.ok "second")], rfl⟩,
    rfl, by decide, rfl, rfl, rfl, rfl, rfl, rfl, rfl⟩

end ContentProtection.Native
