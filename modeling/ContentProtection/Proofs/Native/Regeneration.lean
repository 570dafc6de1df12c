import ContentProtection.Proofs.Native.Lifecycle
import ContentProtection.Proofs.Native.TwinRuns

/-!
# A new native session starts afresh

Making a native session closes the one before, forgets the key and takes back what was signalled. Nothing else of the past matters for a key exchange: two sessions with the same setting are twins as soon as the module is asked for a new native session, and from then on they show the same.
-/

namespace ContentProtection.Native

open ContentProtection.Session (Reply Request collaborators)

/-! ### The way to a new native session -/

def closing (session : Session) : List Move :=
  match session.opened with
  | none => []
  | some number => [.reply (.close number) ()]

/-- The moves from a call for a native session to its construction. There is a system, and nothing else happens meanwhile. -/
def regeneration (session : Session) (initData : Bytes) (customData : Option Bytes) : List Move :=
  .begin (.call (.generate initData customData)) ::
    ((if session.hasSystem then [] else [.reply (.createSystem session.keySystem) true]) ++ closing session)

/-- The session when its new native session is about to be constructed. -/
def Session.regenerated (session : Session) : Session :=
  { session with hasSystem := true, isLocked := true, opened := none }.forgetExchange

/-- What is left of making a native session once the earlier one is closed. -/
def constructing (initData : Bytes) (customData : Option Bytes) : Operation Unit := do
  construct initData customData
  unlock

/-- What is left of making a native session once there is a system for it. -/
def replacing (initData : Bytes) (customData : Option Bytes) : Operation Unit := do
  closeOpened
  modify Session.forgetExchange
  constructing initData customData

variable {activity : Activity} {asked : List Asked} {history : History} {initData : Bytes} {customData : Option Bytes}

theorem generate_of_system {session : Session} (hunlocked : session.isLocked = false)
    (hsystem : session.hasSystem = true) :
    generate initData customData session =
      replacing initData customData { session with hasSystem := true, isLocked := true } := by
  obtain ⟨setting, hasSystem, opened, constructed, memory, isLocked⟩ := session
  cases hunlocked
  cases hsystem
  rfl

theorem generate_of_no_system {session : Session} (hunlocked : session.isLocked = false)
    (hsystem : session.hasSystem = false) :
    ∃ resume, generate initData customData session =
      .ask { session with isLocked := true } (.createSystem session.keySystem) resume ∧
      ∀ after, resume after true = replacing initData customData { after with hasSystem := true } := by
  obtain ⟨setting, hasSystem, opened, constructed, memory, isLocked⟩ := session
  cases hunlocked
  cases hsystem
  exact ⟨_, rfl, fun _ => rfl⟩

theorem Moment.move?_reply (request : Request) (reply : Reply request) {session entry : Session}
    {resume : Session → Reply request → Interaction collaborators Session activity.Result}
    (hlock : request ≠ .waitForLock) :
    (advance activity entry asked [] history (.ask session request resume)).move? (.reply request reply) =
      some (advance activity entry (⟨session, request⟩ :: asked) []
        (.replied request reply :: .asked request :: history) (resume session reply)) :=
  dif_pos ⟨rfl, hlock⟩

/-- Entries that show nothing. -/
def History.IsSilent (history : History) : Prop := ∀ entry ∈ history, entry.shown = (none, none)

theorem History.IsSilent.append {before history : History} (hbefore : before.IsSilent) (hhistory : history.IsSilent) :
    History.IsSilent (before ++ history) := by
  intro entry hentry
  rcases List.mem_append.mp hentry with hentry | hentry
  · exact hbefore entry hentry
  · exact hhistory entry hentry

theorem run_closing (session entry : Session) (initData : Bytes) (customData : Option Bytes) (history : History)
    (hasked : AskedAlike [] asked) :
    ∃ (asked' : List Asked) (before : History),
      (Moment.advance (.call (.generate initData customData)) entry asked [] history
        (replacing initData customData session)).run? (closing session) =
      some (Moment.advance (.call (.generate initData customData)) entry asked' [] (before ++ history)
        (constructing initData customData { session with opened := none }.forgetExchange)) ∧
      AskedAlike [] asked' ∧ before.IsSilent := by
  obtain ⟨setting, hasSystem, opened⟩ := session
  cases opened with
  | none => exact ⟨asked, [], rfl, hasked, by simp [History.IsSilent]⟩
  | some number =>
    refine ⟨_, [.replied (.close number) (), .asked (.close number)],
      (Moment.run?_cons (Moment.move?_reply (.close number) () (by simp))).trans rfl, ⟨?_, rfl⟩, ?_⟩
    · rw [isRefused_cons]
      exact hasked.isConstructing_eq
    · simp [History.IsSilent, Entry.shown, Entry.result?, Entry.state?]

theorem run_regeneration {moment : Moment} (initData : Bytes) (customData : Option Bytes) (hrest : moment.frames = [])
    (hunlocked : moment.session.isLocked = false) (hhandle : 0 < moment.session.handles) :
    ∃ (asked : List Asked) (before : History), moment.run? (regeneration moment.session initData customData) =
      some (Moment.advance (.call (.generate initData customData)) moment.session asked [] (before ++ moment.history)
        (constructing initData customData moment.session.regenerated)) ∧
      AskedAlike [] asked ∧ before.IsSilent := by
  obtain ⟨session, frames, history⟩ := moment
  cases hrest
  dsimp only at *
  have hbegin : (⟨session, [], history⟩ : Moment).move? (.begin (.call (.generate initData customData))) =
      some (Moment.advance (.call (.generate initData customData)) session [] []
        (.began (.call (.generate initData customData)) :: history) (generate initData customData session)) := by
    refine if_pos ?_
    rw [Moment.mayBegin, Bool.and_true]
    exact decide_eq_true hhandle
  cases hsystem : session.hasSystem with
  | true =>
    obtain ⟨asked, before, hclosing, hasked, hbefore⟩ :=
      run_closing { session with hasSystem := true, isLocked := true } session initData customData
        (.began (.call (.generate initData customData)) :: history) ⟨rfl, rfl⟩
    refine ⟨asked, before ++ [.began (.call (.generate initData customData))], ?_, hasked, hbefore.append ?_⟩
    · rw [regeneration, Moment.run?_cons hbegin, generate_of_system hunlocked hsystem, if_pos hsystem,
        List.append_assoc]
      exact hclosing
    · simp [History.IsSilent, Entry.shown, Entry.result?, Entry.state?]
  | false =>
    obtain ⟨resume, hgenerate, hresume⟩ := generate_of_no_system hunlocked hsystem
    have hcreated : AskedAlike [] [⟨{ session with isLocked := true }, .createSystem session.keySystem⟩] := ⟨rfl, rfl⟩
    obtain ⟨asked, before, hclosing, hasked, hbefore⟩ :=
      run_closing { session with hasSystem := true, isLocked := true } session initData customData
        (.replied (.createSystem session.keySystem) true :: .asked (.createSystem session.keySystem) ::
          .began (.call (.generate initData customData)) :: history) hcreated
    refine ⟨asked, before ++ [.replied (.createSystem session.keySystem) true,
      .asked (.createSystem session.keySystem), .began (.call (.generate initData customData))], ?_, hasked,
      hbefore.append ?_⟩
    · rw [regeneration, Moment.run?_cons hbegin, hgenerate, if_neg (by simp [hsystem]), List.append_assoc,
        List.singleton_append]
      refine (Moment.run?_cons (Moment.move?_reply (.createSystem session.keySystem) true (by simp))).trans ?_
      rw [hresume]
      exact hclosing
    · simp [History.IsSilent, Entry.shown, Entry.result?, Entry.state?]

/-! ### No residue -/

variable {setting setting' : Setting} {first second moment : Moment} {later : List Move}

theorem together_constructing {renumber : Nat → Nat} {handled : Nat} {session twin : Session}
    (htwins : Twins renumber handled session twin) :
    Together renumber handled (Rejoined renumber handled (· = ·)) (constructing initData customData session)
      (constructing initData customData twin) :=
  ((alike_construct initData customData).bind fun _ _ _ => alike_unlock) _ _ htwins

/-- Sessions of one helper are twins once each is about to have a new native session constructed. -/
theorem twins_regenerated {renumber : Nat → Nat} {session twin : Session}
    (hrenumber : ∀ more, renumber (session.constructed + more) = twin.constructed + more)
    (hhelper : twin.setting.helper = session.setting.helper)
    (hchannel : twin.setting.hasSideChannel = session.setting.hasSideChannel) (hmemory : twin.memory = session.memory)
    (hprotection : twin.outputProtection = session.outputProtection) (hlink : twin.outputLink = session.outputLink)
    (hhandle : 0 < session.handles) (hhandle' : 0 < twin.handles) :
    Twins renumber 0 session.regenerated twin.regenerated where
  helper_eq := hhelper
  hasSideChannel_eq := hchannel
  hasSystem := rfl
  hasSystem_eq := rfl
  opened_eq := rfl
  constructed_eq := hrenumber
  memory_eq := hmemory
  isLocked_eq := rfl
  key_eq := rfl
  slot_eq := rfl
  keyStatusReady_eq := rfl
  outputProtection_eq := hprotection
  outputLink_eq := hlink
  lt_handles := hhandle
  lt_handles_twin := hhandle'

theorem History.results_append_silent {since before : History} (hbefore : before.IsSilent) :
    History.results (since ++ before) = since.results := by
  have hnone : before.results = [] :=
    List.filterMap_eq_nil_iff.mpr fun entry hentry => congrArg Prod.fst (hbefore entry hentry)
  rw [History.results, List.filterMap_append]
  exact (congrArg _ hnone).trans (List.append_nil _)

theorem History.findSome?_append_silent {since before : History} (hbefore : before.IsSilent) :
    List.findSome? Entry.state? (since ++ before) = since.findSome? Entry.state? := by
  have hnone : before.findSome? Entry.state? = none :=
    List.findSome?_eq_none_iff.mpr fun entry hentry => congrArg Prod.snd (hbefore entry hentry)
  rw [List.findSome?_append, hnone, Option.or_none]

theorem History.results_eq_of_shown {since since' : History} (hshown : since'.map Entry.shown = since.map Entry.shown) :
    since'.results = since.results := by
  have hfst := congrArg (List.filterMap Prod.fst) hshown
  rwa [List.filterMap_map, List.filterMap_map] at hfst

theorem History.findSome?_eq_of_shown {since since' : History}
    (hshown : since'.map Entry.shown = since.map Entry.shown) :
    since'.findSome? Entry.state? = since.findSome? Entry.state? := by
  have hsnd := congrArg (List.findSome? Prod.snd) hshown
  rwa [List.findSome?_map, List.findSome?_map] at hsnd

/-- The state is the last one that was set, whatever was before. -/
theorem History.state_append {since base : History} {state : KeyState}
    (hstate : since.findSome? Entry.state? = some state) : History.state (since ++ base) = state := by
  rw [History.state, List.findSome?_append, hstate]
  rfl

/-- What two sessions show from the making of a native session on, when the same happens to both. -/
theorem shown_after_regeneration (renumber : Nat → Nat)
    (hrenumber : ∀ more, renumber (first.session.constructed + more) = second.session.constructed + more)
    (hfirst : Reachable setting first) (hsecond : Reachable setting' second)
    (hrest : first.frames = []) (hrest' : second.frames = [])
    (hhelper : second.session.setting.helper = first.session.setting.helper)
    (hchannel : second.session.setting.hasSideChannel = first.session.setting.hasSideChannel)
    (hmemory : second.session.memory = first.session.memory)
    (hprotection : second.session.outputProtection = first.session.outputProtection)
    (hlink : second.session.outputLink = first.session.outputLink)
    (hhandle : 0 < first.session.handles) (hhandle' : 0 < second.session.handles)
    (hexchange : ∀ activity, .begin activity ∈ later → activity.isExchange = true)
    (hrun : first.run? (regeneration first.session initData customData ++ later) = some moment) :
    ∃ (twin : Moment) (since since' : History),
      second.run? (regeneration second.session initData customData ++ later.map (sameMove renumber)) = some twin ∧
      moment.history = since ++ first.history ∧ twin.history = since' ++ second.history ∧
      since'.results = since.results ∧
      ((∃ entry ∈ since, entry.state? ≠ none) → twin.session.state = moment.session.state) := by
  have hunlocked : first.session.isLocked = false := hfirst.custody.unlocked (by rw [hrest]; rfl)
  have hunlocked' : second.session.isLocked = false := hsecond.custody.unlocked (by rw [hrest']; rfl)
  have htwins := twins_regenerated hrenumber hhelper hchannel hmemory hprotection hlink hhandle hhandle'
  -- the ways to the construction may differ, but they show nothing; the twins begin there
  obtain ⟨asked, before, hbefore, hasked, hsilent⟩ := run_regeneration initData customData hrest hunlocked hhandle
  obtain ⟨asked', before', hbefore', hasked', hsilent'⟩ :=
    run_regeneration initData customData hrest' hunlocked' hhandle'
  have halike : AskedAlike asked asked' :=
    ⟨hasked'.isRefused_eq.trans hasked.isRefused_eq.symm, hasked'.isConstructing_eq.trans hasked.isConstructing_eq.symm⟩
  have hmoment := hfirst.run hrun
  rw [Moment.run?_append, hbefore, Option.bind_some] at hrun
  obtain ⟨twin, hrun', hend⟩ := TwinMoments.run?
    (twins_advance (together_constructing htwins) halike .nil
      (.refl (before ++ first.history) (before' ++ second.history))) hexchange hrun
  obtain ⟨since, since', hsince, hsince', hshown⟩ := hend.history
  have htwin : second.run? (regeneration second.session initData customData ++ later.map (sameMove renumber)) =
      some twin := by
    rw [Moment.run?_append, hbefore', Option.bind_some]
    exact hrun'
  have hhistory : moment.history = (since ++ before) ++ first.history := by rw [hsince, List.append_assoc]
  have hhistory' : twin.history = (since' ++ before') ++ second.history := by rw [hsince', List.append_assoc]
  refine ⟨twin, since ++ before, since' ++ before', htwin, hhistory, hhistory', ?_, ?_⟩
  · rw [History.results_append_silent hsilent, History.results_append_silent hsilent']
    exact History.results_eq_of_shown hshown
  · rintro ⟨entry, hentry, hshows⟩
    cases hstate : List.findSome? Entry.state? (since ++ before) with
    | none => exact absurd (List.findSome?_eq_none_iff.mp hstate entry hentry) hshows
    | some state =>
      have hstate' : List.findSome? Entry.state? (since' ++ before') = some state := by
        rw [History.findSome?_append_silent hsilent', History.findSome?_eq_of_shown hshown,
          ← History.findSome?_append_silent hsilent, hstate]
      rw [hmoment.state_eq, (hsecond.run htwin).state_eq, hhistory, hhistory', History.state_append hstate,
        History.state_append hstate']

/-- Making a native session leaves nothing of what was before. Two sessions of one helper with the same collaborators whose native session is made anew, and to which the same happens from then on, return the same from all calls of the key exchange. Their states are the same as soon as one has been set: by a construction that fails, by a key request, by processing a license or by clearing. -/
theorem regeneration_leaves_no_residue (hfirst : Reachable setting first) (hsecond : Reachable setting' second)
    (hrest : first.frames = []) (hrest' : second.frames = [])
    (hhelper : second.session.setting.helper = first.session.setting.helper)
    (hchannel : second.session.setting.hasSideChannel = first.session.setting.hasSideChannel)
    (hmemory : second.session.memory = first.session.memory)
    (hprotection : second.session.outputProtection = first.session.outputProtection)
    (hlink : second.session.outputLink = first.session.outputLink)
    (hhandle : 0 < first.session.handles) (hhandle' : 0 < second.session.handles)
    (hexchange : ∀ activity, .begin activity ∈ later → activity.isExchange = true)
    (hrun : first.run? (regeneration first.session initData customData ++ later) = some moment) :
    ∃ (twin : Moment) (since since' : History),
      second.run? (regeneration second.session initData customData ++
        later.map (sameMove fun number => number - first.session.constructed + second.session.constructed)) =
          some twin ∧
      moment.history = since ++ first.history ∧ twin.history = since' ++ second.history ∧
      since'.results = since.results ∧
      ((∃ entry ∈ since, entry.state? ≠ none) → twin.session.state = moment.session.state) := by
  apply shown_after_regeneration _ ?_ hfirst hsecond hrest hrest' hhelper hchannel hmemory hprotection hlink hhandle
    hhandle' hexchange hrun
  intro more
  omega

/-- The last entry is not among those before. -/
theorem mem_since {entry : Entry} {earlier since base : History} (hhistory : entry :: earlier = since ++ base)
    (hlength : base.length ≤ earlier.length) : entry ∈ since := by
  cases since with
  | nil =>
    have hsame := congrArg List.length hhistory
    simp only [List.length_cons, List.nil_append] at hsame
    omega
  | cons last since =>
    rw [(List.cons.inj hhistory).1]
    exact List.mem_cons_self

/-- A construction that succeeds, and a license for a key that the module then reports. -/
def movesOfExchange : List Move :=
  [.reply (.construct [] none) (.ok "new"),
    .begin (.event (.keyUpdate [3])),
    .reply (.queryStatus 2 [3]) .outputRestricted,
    .begin (.event .keysUpdated),
    .begin (.call (.process none ⟨0⟩))]

/-- One session had a usable key and a challenge that nobody took, and the other one is new. -/
theorem regeneration_leaves_no_residue_of_usable_key :
    ∃ first moment twin : Moment, Reachable settingWithSideChannel first ∧ first.session.key.status = some .usable ∧
      first.session.slot = some ⟨[1], "old"⟩ ∧
      first.run? (regeneration first.session [] none ++ movesOfExchange) = some moment ∧
      (Moment.initial settingWithSideChannel).run?
        (regeneration (Session.ofSetting settingWithSideChannel) [] none ++
          movesOfExchange.map (sameMove fun number => number - 1 + 0)) = some twin ∧
      moment.session.state = .error ∧ twin.session.state = .error := by
  have hrun : ∃ first moment record earlier, Reachable settingWithSideChannel first ∧ first.frames = [] ∧
      first.session.setting = settingWithSideChannel ∧ first.session.memory = none ∧
      first.session.outputProtection = true ∧ first.session.outputLink = {} ∧ first.session.handles = 1 ∧
      first.session.constructed = 1 ∧ first.session.key.status = some .usable ∧
      first.session.slot = some ⟨[1], "old"⟩ ∧
      first.run? (regeneration first.session [] none ++ movesOfExchange) = some moment ∧
      moment.session.state = .error ∧ moment.history = .ended record :: earlier ∧ record.state? = some .error ∧
      first.history.length ≤ earlier.length :=
    ⟨_, _, _, _, ⟨[.begin (.call (.generate [] none)),
        .reply (.createSystem settingWithSideChannel.helper.keySystem) true, .reply (.construct [] none) (.ok "old"),
        .begin (.event (.keyUpdate [2])), .reply (.queryStatus 1 [2]) .usable, .begin (.event .keysUpdated),
        .begin (.event (.challenge "old" [1]))], rfl⟩,
      rfl, rfl, rfl, rfl, rfl, rfl, rfl, rfl, rfl, rfl, rfl, rfl, rfl, by decide⟩
  obtain ⟨first, moment, record, earlier, hreach, hrest, hsetting, hmemory, hprotection, hlink, hhandles,
    hconstructed, husable, hslot, hrun, hstate, hended, hshows, hlength⟩ := hrun
  have hexchange : ∀ activity, .begin activity ∈ movesOfExchange → activity.isExchange = true := by
    simp [movesOfExchange, Activity.isExchange, Call.isExchange]
  have hinitial : Reachable settingWithSideChannel (Moment.initial settingWithSideChannel) := ⟨[], rfl⟩
  obtain ⟨twin, since, since', htwin, hsince, -, -, hstates⟩ := regeneration_leaves_no_residue hreach hinitial hrest rfl
    (congrArg Setting.helper hsetting).symm (congrArg Setting.hasSideChannel hsetting).symm hmemory.symm
    hprotection.symm hlink.symm (by omega) Nat.one_pos hexchange hrun
  have hshown : ∃ entry ∈ since, entry.state? ≠ none := by
    refine ⟨.ended record, mem_since (hended.symm.trans hsince) hlength, ?_⟩
    rw [Entry.state?, hshows]
    simp
  rw [hconstructed] at htwin
  exact ⟨first, moment, twin, hreach, husable, hslot, hrun, htwin, hstate, (hstates hshown).trans hstate⟩

end ContentProtection.Native
