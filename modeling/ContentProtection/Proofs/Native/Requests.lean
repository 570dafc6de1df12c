import ContentProtection.Proofs.Native.Course
import ContentProtection.Proofs.Native.Footprint

/-!
# Who asks for what

Which requests an activity can make, whatever it finds and whatever the replies are. Only making a native session asks for its construction, only decrypting goes to a memory system, only processing a license reports an error of the hardware, and only a challenge reaches the side channel. Together with what an activity can change, this is its footprint, which every step of it keeps to.
-/

namespace ContentProtection.Native

open ContentProtection.Session (Fault Reply Request Signal ask)

/-! ### What may be asked for -/

def Event.asks : Event → Request → Bool
  | challenge _ _, .individualize _ | challenge _ _, .renew | keyUpdate _, .queryStatus _ _ => true
  | _, .close _ => true
  | _, _ => false

def Call.asks : Call → Request → Bool
  | generate _ _, .waitForLock | generate _ _, .createSystem _ | generate _ _, .close _ |
    generate _ _, .construct _ _ => true
  | keyRequest _, .wait .challengeReady _ => true
  | process _ _, .waitForLock | process _ _, .update _ _ | process _ _, .wait .keyStatusReady _ |
    process _ _, .queryStatus _ _ | process _ _, .hardwareError _ => true
  | decrypt _ _, .waitForLock | decrypt _ _, .encode _ _ | decrypt _ _, .decrypt _ _ _ | decrypt _ _, .decode _ _ _ |
    decrypt _ _, .terminateEarly _ => true
  | waitForState _ _, .wait .stateChanged _ => true
  | clear, .waitForLock | clear, .close _ => true
  | setMemory _, .waitForLock => true
  | release, .close _ => true
  | _, _ => false

def Activity.asks : Activity → Request → Bool
  | event fired => fired.asks
  | call made => made.asks

/-- What an activity can change of a session. An event has a handle of its own. -/
def Activity.changes : Activity → List Part
  | event fired => .handles :: .opened :: fired.changes
  | call made => made.changes

/-- An operation that asks for nothing but what it may. -/
abbrev Asks {α : Type} (asks : Request → Bool) (program : Operation α) : Prop :=
  Program.Within (fun _ _ => True) (fun request => asks request = true) (fun _ => True) program

instance : IsPreorder Session fun _ _ => True where
  refl _ := trivial
  trans _ _ _ _ _ := trivial

variable {α : Type} {may : Request → Bool}

theorem asks_modifyGet (change : Session → α × Session) : Asks may (modifyGet change : Operation α) :=
  within_modifyGet fun _ => trivial

theorem asks_modify (change : Session → Session) : Asks may (modify change : Operation Unit) :=
  asks_modifyGet _

theorem asks_ask {request : Request} (hmay : may request = true) : Asks may (ask request : Operation _) :=
  within_ask hmay

/-! ### Requests, latches and the lock -/

theorem asks_await (which : Signal) (timeout : Duration) (hwait : may (.wait which timeout) = true) :
    Asks may (await which timeout) := by
  refine (asks_modifyGet _).bind fun _ _ => within_ite (within_pure trivial) ?_
  exact (asks_ask hwait).bind fun _ _ => asks_modifyGet _

theorem asks_awaitUnlocked (hlock : may .waitForLock = true) : Asks may awaitUnlocked :=
  within_get.bind fun _ _ => within_ite (asks_ask hlock) (within_pure trivial)

theorem asks_lock (hlock : may .waitForLock = true) : Asks may lock :=
  (asks_awaitUnlocked hlock).bind fun _ _ => asks_modify _

theorem asks_openSession (hlock : may .waitForLock = true) : Asks may openSession :=
  (asks_awaitUnlocked hlock).bind fun _ _ => within_get.bind fun _ _ => within_pure trivial

theorem asks_closeOpened (hclose : ∀ number, may (.close number) = true) : Asks may closeOpened := by
  refine within_get.bind fun session _ => ?_
  cases session.opened with
  | none => exact within_pure trivial
  | some number => exact (asks_modify _).bind fun _ _ => asks_ask (hclose number)

/-! ### Operations -/

theorem asks_ensureSystem (hsystem : ∀ keySystem, may (.createSystem keySystem) = true) : Asks may ensureSystem := by
  refine within_get.bind fun _ _ => within_ite (within_pure trivial) (within_get.bind fun _ _ => ?_)
  exact (asks_ask (hsystem _)).bind fun _ _ => (asks_modify _).bind fun _ _ => within_pure trivial

theorem asks_construct {initData : Bytes} {customData : Option Bytes}
    (hconstruct : may (.construct initData customData) = true) (hclose : ∀ number, may (.close number) = true) :
    Asks may (construct initData customData) := by
  refine (asks_ask hconstruct).bind fun made _ => ?_
  cases made with
  | error status => exact asks_modify _
  | ok id =>
    refine (asks_modifyGet _).bind fun number _ => within_ite ?_ (asks_modify _)
    exact (asks_ask (hclose number)).bind fun _ _ => asks_modify _

theorem asks_generate (initData : Bytes) (customData : Option Bytes) :
    Asks (Call.generate initData customData).asks (generate initData customData) := by
  refine (asks_lock rfl).bind fun _ _ => (asks_ensureSystem fun _ => rfl).bind fun _ _ => within_ite ?_ ?_
  · exact (asks_closeOpened fun _ => rfl).bind fun _ _ => (asks_modify _).bind fun _ _ =>
      (asks_construct rfl fun _ => rfl).bind fun _ _ => asks_modify _
  · exact (asks_modify _).bind fun _ _ => asks_modify _

theorem asks_keyRequest (timeout : Duration) : Asks (Call.keyRequest timeout).asks (keyRequest timeout) := by
  refine (asks_modify _).bind fun _ _ => (asks_await _ _ rfl).bind fun _ _ => within_ite (within_pure trivial) ?_
  refine (asks_modifyGet _).bind fun _ _ => within_ite (within_pure trivial) ?_
  exact (asks_modify _).bind fun _ _ => within_pure trivial

theorem asks_process (license : Option LicenseData) (timeout : Duration) :
    Asks (Call.process license timeout).asks (process license timeout) := by
  have hresolve : Asks (Call.process license timeout).asks resolveKeyStatus := by
    refine (asks_openSession rfl).bind fun opened _ => within_get.bind fun session _ => ?_
    dsimp only
    cases session.key.status with
    | some status => exact within_pure trivial
    | none =>
      cases opened with
      | none => exact within_pure trivial
      | some number =>
        refine within_ite (within_pure trivial) ((asks_ask rfl).bind fun _ _ => ?_)
        exact (asks_modify _).bind fun _ _ => within_pure trivial
  have hsettle : Asks (Call.process license timeout).asks (settle timeout) := by
    refine (asks_await _ _ rfl).bind fun _ _ => hresolve.bind fun status _ => (asks_modify _).bind fun _ _ => ?_
    have hrest : Asks (Call.process license timeout).asks
        (do signal .stateChanged; return outcome status : Operation (Except Fault Unit)) :=
      (asks_modify _).bind fun _ _ => within_pure trivial
    exact within_ite (within_get.bind fun _ _ => (asks_ask rfl).bind fun _ _ => hrest) hrest
  cases license with
  | none => exact hsettle
  | some given =>
    have hfeed : Asks (Call.process (some given) timeout).asks (feedLicense given) := by
      refine (asks_openSession rfl).bind fun opened _ => ?_
      cases opened with
      | none => exact within_pure trivial
      | some number => exact (asks_ask rfl).bind fun _ _ => within_pure trivial
    rw [process_some]
    exact hfeed.bind fun _ _ => hsettle

theorem asks_decryptOpened {number : Nat} {encryption : Sample.Encryption} {payload : Bytes}
    (hencode : ∀ memory, may (.encode memory payload) = true)
    (hdecrypt : ∀ data, may (.decrypt number encryption data) = true)
    (hterminate : ∀ memory, may (.terminateEarly memory) = true)
    (hdecode : ∀ memory data, may (.decode memory data payload) = true) :
    Asks may (decryptOpened number encryption payload) := by
  refine within_get.bind fun session _ => ?_
  cases session.memory with
  | none =>
    refine (asks_ask (hdecrypt payload)).bind fun decrypted _ => ?_
    obtain ⟨status | _, buffer⟩ := decrypted <;> exact within_pure trivial
  | some memory =>
    refine (asks_ask (hencode memory)).bind fun encoded _ => ?_
    cases encoded with
    | none => exact within_pure trivial
    | some encoded =>
      refine (asks_ask (hdecrypt encoded)).bind fun decrypted _ => ?_
      obtain ⟨status | _, decrypted⟩ := decrypted
      · exact (asks_ask (hterminate memory)).bind fun _ _ => within_pure trivial
      · refine (asks_ask (hdecode memory decrypted)).bind fun decoded _ => ?_
        obtain ⟨_ | _, buffer⟩ := decoded <;> exact within_pure trivial

theorem asks_decrypt (encryption : Sample.Encryption) (payload : Bytes) :
    Asks (Call.decrypt encryption payload).asks (decrypt encryption payload) := by
  have hrest : ∀ result, Asks (Call.decrypt encryption payload).asks
      (do unlock; return result : Operation (Except Fault Unit × Bytes)) :=
    fun result => (asks_modify _).bind fun _ _ => within_pure trivial
  rw [decrypt_eq]
  refine within_get.bind fun _ _ => within_ite (within_pure trivial) ((asks_lock rfl).bind fun _ _ => ?_)
  refine within_get.bind fun session _ => ?_
  cases session.opened with
  | none => exact hrest _
  | some number =>
    refine Program.Within.bind (asks_decryptOpened ?_ ?_ ?_ ?_) fun result _ => hrest result
    all_goals intros; rfl

theorem asks_release (hclose : ∀ number, may (.close number) = true) : Asks may release := by
  refine within_get.bind fun _ _ => (asks_modify _).bind fun _ _ => within_ite ?_ (within_pure trivial)
  exact asks_closeOpened hclose

theorem asks_call (made : Call) : Asks made.asks made.program := by
  cases made with
  | generate initData customData => exact asks_generate initData customData
  | keyRequest timeout => exact asks_keyRequest timeout
  | process license timeout => exact asks_process license timeout
  | decrypt encryption payload => exact asks_decrypt encryption payload
  | waitForState state timeout =>
    refine within_get.bind fun _ _ => within_ite (within_pure trivial) ?_
    exact (asks_await _ _ rfl).bind fun _ _ => within_get.bind fun _ _ => within_pure trivial
  | clear =>
    refine (asks_lock rfl).bind fun _ _ => (asks_closeOpened fun _ => rfl).bind fun _ _ => ?_
    exact (asks_modify _).bind fun _ _ => asks_modify _
  | setMemory memory => exact (asks_awaitUnlocked rfl).bind fun _ _ => asks_modify _
  | setOutputProtection enabled => exact asks_modify _
  | setSecurityManager handle => exact asks_modify _
  | changeOutputLink link => exact asks_modify _
  | retain => exact asks_modify _
  | release => exact asks_release fun _ => rfl

theorem asks_deliver (event : Event) : Asks event.asks (deliver event) := by
  have hhandle : Asks event.asks (handle event) := by
    cases event with
    | challenge url payload =>
      refine within_get.bind fun session _ => within_ite (within_ite (asks_ask rfl) (within_pure trivial)) ?_
      refine (asks_modify _).bind fun _ _ => (asks_modify _).bind fun _ _ => ?_
      exact within_ite (asks_ask rfl) (within_pure trivial)
    | keyUpdate keyId =>
      refine within_get.bind fun session _ => ?_
      cases if session.isLocked then none else session.opened with
      | none => exact asks_modify _
      | some number => exact (asks_ask rfl).bind fun _ _ => asks_modify _
    | error message => exact within_pure trivial
    | keysUpdated => exact asks_modify _
  refine within_get.bind fun _ _ => within_ite (within_pure trivial) ((asks_modify _).bind fun _ _ => ?_)
  refine hhandle.bind fun _ _ => asks_release fun number => ?_
  cases event <;> rfl

/-! ### Footprints of activities -/

theorem within_activity (activity : Activity) :
    Program.Within (SameBut activity.changes) (fun request => activity.asks request = true) (fun _ => True)
      activity.program := by
  cases activity with
  | event fired =>
    intro session
    refine ((confined_deliver fired session).and (asks_deliver fired session)).mono ?_ ?_ ?_
    · exact fun _ _ hsame => hsame.1
    · exact fun _ hasks => hasks.2
    · exact fun _ _ => trivial
  | call made =>
    intro session
    refine ((confined_call made session).and (asks_call made session)).mono ?_ ?_ ?_
    · exact fun _ _ hsame => hsame.1
    · exact fun _ hasks => hasks.2
    · exact fun _ _ => trivial

/-- Who asks for a system or a native session makes one. -/
theorem Activity.eq_generate {activity : Activity} {request : Request} (hasks : activity.asks request = true)
    (hrequest : (∃ keySystem, request = .createSystem keySystem) ∨
      ∃ initData customData, request = .construct initData customData) :
    ∃ initData customData, activity = .call (.generate initData customData) := by
  rcases hrequest with ⟨keySystem, rfl⟩ | ⟨initData, customData, rfl⟩
  all_goals
    cases activity with
    | event fired => cases fired <;> cases hasks
    | call made => cases made <;> first | exact ⟨_, _, rfl⟩ | cases hasks

/-- Who reports an error of the hardware processes a license. -/
theorem Activity.eq_process {activity : Activity} {keySystem : String}
    (hasks : activity.asks (.hardwareError keySystem) = true) :
    ∃ license timeout, activity = .call (.process license timeout) := by
  cases activity with
  | event fired => cases fired <;> cases hasks
  | call made => cases made <;> first | exact ⟨_, _, rfl⟩ | cases hasks

/-- A step changes and asks for no more than its activity may. -/
def footprint : Conduct := fun activity course before after =>
  SameBut activity.changes before after ∧
    ∀ request earlier, course = .asked request :: earlier → activity.asks request = true

theorem footprint_kept (activity : Activity) : footprint.KeptBy activity := by
  intro session
  refine proceeds_of_within (fun _ => SameBut activity.changes) (within_activity activity session)
    (.refl _ session) (fun _ _ _ _ => .trans) ?_ (fun _ _ _ between _ _ => .refl _ between) ?_
  · intro request course before after hasks hsame
    refine ⟨hsame, fun request' earlier hcourse => ?_⟩
    cases hcourse
    exact hasks
  · intro course asked before after result hsame _
    exact ⟨hsame, fun request earlier hcourse => by cases hcourse⟩

namespace Reachable

variable {setting : Setting} {moment moment' : Moment} {move : Move}

/-- Every move of a run is a step of some activity, within its footprint and in keeping with the conduct of all activities. -/
theorem step {conduct : Conduct} (hkeeps : ∀ activity, conduct.KeptBy activity) (hreach : Reachable setting moment)
    (hmove : moment.move? move = some moment') :
    ∃ activity below first last, Moment.Step moment move moment' activity below first last ∧
      SameBut activity.changes moment.session moment'.session ∧
      (∀ request, last = .asked request → activity.asks request = true) ∧
      moment'.history.lastCourse.getLast? = some (.began activity) ∧
      conduct activity moment'.history.lastCourse moment.session moment'.session := by
  obtain ⟨activity, below, first, last, hstep, hbegan, hconduct, hsame, hasks⟩ :=
    hreach.conducts (fun activity => (hkeeps activity).and (footprint_kept activity)) hmove
  have hlast := hstep.lastCourse_eq
  refine ⟨activity, below, first, last, hstep, hsame, ?_, ?_, hconduct⟩
  · rintro request rfl
    exact hasks request _ hlast
  · rw [hlast, List.getLast?_cons, hbegan]
    rfl

/-- What holds when a request is made and is kept by every step since then. -/
theorem induct_since {conduct : Conduct} (hkeeps : ∀ activity, conduct.KeptBy activity) {request : Request}
    {earlier : History} {motive : Moment → History → Prop}
    (hasked : ∀ moment, Reachable setting moment → moment.history = .asked request :: earlier → motive moment [])
    (hstep : ∀ moment move moment' activity below first last since, Reachable setting moment →
      moment.history = since ++ .asked request :: earlier → motive moment since →
      Moment.Step moment move moment' activity below first last →
      SameBut activity.changes moment.session moment'.session →
      (∀ request, last = .asked request → activity.asks request = true) →
      conduct activity moment'.history.lastCourse moment.session moment'.session →
      motive moment' (last :: first :: since))
    (hreach : Reachable setting moment) :
    ∀ since, moment.history = since ++ .asked request :: earlier → motive moment since := by
  refine induct ?_ ?_ hreach
  · intro since hhistory
    simp [Moment.initial] at hhistory
  intro moment move moment' hreach hsince hmove since hhistory
  obtain ⟨activity, below, first, last, hmade, hsame, hasks, -, hconduct⟩ := hreach.step hkeeps hmove
  rcases hmade.since_asked hhistory with ⟨rfl, hbefore⟩ | ⟨before, rfl, hbefore⟩
  · exact hasked moment' (hreach.move hmove) hbefore
  · exact hstep _ _ _ _ _ _ _ _ hreach hbefore (hsince before hbefore) hmade hsame hasks hconduct

/-- An activity that has just ended has done so in keeping with its conduct. -/
theorem ended {conduct : Conduct} (hkeeps : ∀ activity, conduct.KeptBy activity) (hreach : Reachable setting moment) :
    ∀ record (earlier : History), moment.history = .ended record :: earlier →
      (earlier.course 0).getLast? = some (.began record.activity) ∧
        ∃ before, conduct record.activity (.ended record :: earlier.course 0) before moment.session := by
  refine induct (fun record earlier hended => by cases hended) ?_ hreach
  intro moment move moment' hreach _ hmove record earlier hended
  obtain ⟨activity, below, first, last, hstep, hbegan, hconduct⟩ := hreach.conducts hkeeps hmove
  rw [hstep.lastCourse_eq] at hconduct
  obtain ⟨rfl, rfl⟩ := List.cons.inj (hstep.history_eq.symm.trans hended)
  cases hstep.stops with
  | ended _ hactivity => exact ⟨hactivity ▸ hbegan, moment.session, hactivity ▸ hconduct⟩

/-- What is awaited was asked for by an activity that may. -/
theorem frame_asks (hreach : Reachable setting moment) :
    ∀ frame ∈ moment.frames, frame.activity.asks frame.request = true := by
  refine induct (fun _ hframe => (List.not_mem_nil hframe).elim) ?_ hreach
  intro moment move moment' hreach hframes hmove
  obtain ⟨activity, below, first, last, hstep, -, hasks, -⟩ := hreach.step footprint_kept hmove
  intro frame hframe
  rcases hstep.of_mem_frames hframe with hframe | ⟨rfl, rfl⟩
  · exact hframes frame (hstep.mem_frames hframe).1
  · exact hasks _ rfl

end Reachable

end ContentProtection.Native
