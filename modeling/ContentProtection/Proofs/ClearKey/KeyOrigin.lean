import ContentProtection.Proofs.ClearKey.Acquisition
import ContentProtection.Proofs.ClearKey.Run

/-!
# Where the key of a session comes from

A run is told by the outcomes of its calls. The key is dropped when the session is made again or cleared, and it is installed when a license is accepted. Nothing else touches it: neither a license that is refused, nor a request, nor others that go on during a wait. So the key is the one from the license that was accepted last, and between dropping it and accepting a license nothing is decrypted.
-/

namespace ContentProtection.ClearKey

open ContentProtection.Session (Contract Fault Reply collaborators)

/-! ### Outcomes -/

/-- A call that has ended. -/
structure Outcome where
  made : Call
  result : made.Result

/-- Whether a call drops the key. -/
def Call.startsOver : Call → Bool
  | generate _ _ | clear => true
  | _ => false

/-- The license that a call has made the session accept, if any. -/
def Call.accepted? : (made : Call) → made.Result → Option LicenseData
  | process license _, .ok () => license
  | _, _ => none

def Outcome.accepted? (outcome : Outcome) : Option LicenseData := outcome.made.accepted? outcome.result

/-- A call that neither drops nor installs a key, however it ends. -/
def Call.Neutral (made : Call) : Prop := made.startsOver = false ∧ ∀ result, made.accepted? result = none

/-- The license that was accepted last since the session last started over, from outcomes with the latest first. -/
def lastAccepted? : List Outcome → Option LicenseData
  | [] => none
  | outcome :: earlier => if outcome.made.startsOver then none else outcome.accepted?.or (lastAccepted? earlier)

theorem lastAccepted?_cons_of_startsOver {outcome : Outcome} (hover : outcome.made.startsOver = true)
    (earlier : List Outcome) : lastAccepted? (outcome :: earlier) = none :=
  if_pos hover

theorem lastAccepted?_cons_of_keeps {outcome : Outcome} (hover : outcome.made.startsOver = false)
    (earlier : List Outcome) :
    lastAccepted? (outcome :: earlier) = outcome.accepted?.or (lastAccepted? earlier) := by
  rw [lastAccepted?, hover]
  rfl

theorem lastAccepted?_cons_of_neutral {outcome : Outcome} (hneutral : outcome.made.Neutral) (earlier : List Outcome) :
    lastAccepted? (outcome :: earlier) = lastAccepted? earlier := by
  rw [lastAccepted?_cons_of_keeps hneutral.1, Outcome.accepted?, hneutral.2, Option.none_or]

/-- Nothing counts from before the session started over. -/
theorem lastAccepted?_append_startsOver {later : List Outcome} {reset : Outcome} (earlier : List Outcome)
    (hreset : reset.made.startsOver = true) (hnone : ∀ outcome ∈ later, outcome.accepted? = none) :
    lastAccepted? (later ++ reset :: earlier) = none := by
  induction later with
  | nil => exact lastAccepted?_cons_of_startsOver hreset earlier
  | cons outcome later ih =>
    rw [List.cons_append, lastAccepted?, hnone outcome List.mem_cons_self, Option.none_or,
      ih fun other hother => hnone other (.tail _ hother), ite_self]

theorem exists_of_lastAccepted? {outcomes : List Outcome} {license : LicenseData}
    (hlast : lastAccepted? outcomes = some license) :
    ∃ later outcome earlier, outcomes = later ++ outcome :: earlier ∧ outcome.accepted? = some license ∧
      ∀ other ∈ later, other.made.startsOver = false ∧ other.accepted? = none := by
  induction outcomes with
  | nil => cases hlast
  | cons outcome outcomes ih =>
    by_cases hover : outcome.made.startsOver = true
    · rw [lastAccepted?_cons_of_startsOver hover] at hlast
      cases hlast
    · have hkeeps := Bool.eq_false_of_not_eq_true hover
      rw [lastAccepted?_cons_of_keeps hkeeps] at hlast
      cases haccepted : outcome.accepted? with
      | some accepted =>
        rw [haccepted] at hlast
        exact ⟨[], outcome, outcomes, rfl, haccepted.trans hlast, by simp⟩
      | none =>
        rw [haccepted, Option.none_or] at hlast
        obtain ⟨later, found, earlier, rfl, hfound, hlater⟩ := ih hlast
        exact ⟨outcome :: later, found, earlier, rfl, hfound, List.forall_mem_cons.mpr ⟨⟨hkeeps, haccepted⟩, hlater⟩⟩

/-! ### Runs with outcomes -/

/-- The outcome of a call, once it is over. -/
def ended (made : Call) : Interaction collaborators Session made.Result → List Outcome
  | .done _ result => [⟨made, result⟩]
  | .ask _ _ _ => []

/-- The moments of runs, each with the outcomes of the calls that have ended by then, latest first. -/
inductive Runs (start : Session) : Moment → List Outcome → Prop
  | start : Runs start { session := start } []
  | begin {moment : Moment} {outcomes : List Outcome} (before : Runs start moment outcomes) (made : Call) :
    Runs start (Moment.advance made moment.frames (made :: moment.calls) (made.program moment.session))
      (ended made (made.program moment.session) ++ outcomes)
  | reply {session : Session} {calls : List Call} {above : List Frame} {frame : Frame} {below : List Frame}
      {outcomes : List Outcome} (before : Runs start ⟨session, above ++ frame :: below, calls⟩ outcomes)
      (reply : Reply frame.request) :
    Runs start (Moment.advance frame.made (above ++ below) calls (frame.resume session reply))
      (ended frame.made (frame.resume session reply) ++ outcomes)

/-- Outcomes are told of every run and of nothing else. -/
theorem reachableFrom_iff_exists_runs {start : Session} {moment : Moment} :
    ReachableFrom start moment ↔ ∃ outcomes, Runs start moment outcomes := by
  constructor
  · intro hreach
    induction hreach with
    | refl => exact ⟨[], .start⟩
    | tail _ hstep ih =>
      obtain ⟨outcomes, hruns⟩ := ih
      cases hstep with
      | begin moment made => exact ⟨_, hruns.begin made⟩
      | reply session calls above frame below reply => exact ⟨_, hruns.reply reply⟩
  · rintro ⟨outcomes, hruns⟩
    induction hruns with
    | start => exact .refl
    | begin _ made ih => exact ih.tail (.begin _ made)
    | reply _ reply ih => exact ih.tail (.reply _ _ _ _ _ reply)

/-- A call that asks for nothing is over at once. -/
theorem Runs.ends {start after : Session} {moment : Moment} {outcomes : List Outcome} {made : Call}
    {result : made.Result} (before : Runs start moment outcomes)
    (hends : made.program moment.session = .done after result) :
    Runs start ⟨after, moment.frames, made :: moment.calls⟩ (⟨made, result⟩ :: outcomes) := by
  have hruns := before.begin made
  rw [hends] at hruns
  exact hruns

/-! ### What calls do to the key -/

/-- The key that a session with a key id selects from a license. -/
def selected? (keyId : Option Uuid) (license : LicenseData) : Option ContentKey :=
  (KeySet.parse? license.bytes).bind (·.select? keyId)

/-- The session has the key of the license that was accepted last, and its state tells whether it has one. -/
structure Session.Traced (session : Session) (outcomes : List Outcome) : Prop where
  key_eq : session.key = (lastAccepted? outcomes).bind (selected? session.keyId)
  init : session.state = .init → session.key = none
  ready : session.state = .ready → session.key ≠ none

/-- What the key goes by is as it was. -/
structure SameKey (before after : Session) : Prop where
  key_eq : after.key = before.key
  keyId_eq : after.keyId = before.keyId
  state_eq : after.state = before.state

instance : IsPreorder Session SameKey where
  refl _ := ⟨rfl, rfl, rfl⟩
  trans _ _ _ hfirst hthen :=
    ⟨hthen.key_eq.trans hfirst.key_eq, hthen.keyId_eq.trans hfirst.keyId_eq, hthen.state_eq.trans hfirst.state_eq⟩

/-- An operation that leaves the key alone. -/
abbrev SparesKey {α : Type} (program : ContentProtection.Session.Operation Session α) : Prop :=
  program.Within SameKey (fun _ => True) fun _ => True

namespace Session.Traced

variable {session : Session} {outcomes : List Outcome}

theorem of_sameKey {after : Session} (htraced : session.Traced outcomes) (hsame : SameKey session after) :
    after.Traced outcomes := by
  obtain ⟨hkey, hkeyId, hstate⟩ := hsame
  refine ⟨?_, ?_, ?_⟩
  · rw [hkey, hkeyId, htraced.key_eq]
  · rw [hstate, hkey]
    exact htraced.init
  · rw [hstate, hkey]
    exact htraced.ready

theorem of_neutral {outcome : Outcome} (htraced : session.Traced outcomes) (hneutral : outcome.made.Neutral) :
    session.Traced (outcome :: outcomes) :=
  ⟨by rw [lastAccepted?_cons_of_neutral hneutral, htraced.key_eq], htraced.init, htraced.ready⟩

theorem startOver {outcome : Outcome} (hover : outcome.made.startsOver = true) (hkey : session.key = none)
    (hstate : session.state ≠ .ready) : session.Traced (outcome :: outcomes) :=
  ⟨by rw [lastAccepted?_cons_of_startsOver hover, hkey, Option.bind_none], fun _ => hkey,
    fun hready => absurd hready hstate⟩

/-- A license that is refused changes the state but leaves the key. -/
theorem process (htraced : session.Traced outcomes) (license : Option LicenseData) (timeout : Duration) :
    (session.process license).2.Traced (⟨.process license timeout, (session.process license).1⟩ :: outcomes) := by
  unfold Session.process
  dsimp only
  split
  · rename_i key hkey
    obtain ⟨accepted, rfl, hselected⟩ := Option.bind_eq_some_iff.mp hkey
    exact ⟨hselected.symm, nofun, fun _ => nofun⟩
  · exact ⟨htraced.key_eq, nofun, nofun⟩

/-- A request changes nothing but the state. -/
theorem keyRequest (htraced : session.Traced outcomes) (timeout : Duration) :
    session.keyRequest.2.Traced (⟨.keyRequest timeout, session.keyRequest.1⟩ :: outcomes) := by
  have hkeyRequest : session.keyRequest.2.Traced outcomes := by
    unfold Session.keyRequest
    split <;> exact ⟨htraced.key_eq, nofun, nofun⟩
  exact hkeyRequest.of_neutral ⟨rfl, fun _ => rfl⟩

end Session.Traced

/-! ### Moments -/

/-- The key is traced, and suspended calls will leave it alone. -/
structure Moment.Traced (moment : Moment) (outcomes : List Outcome) : Prop where
  session : moment.session.Traced outcomes
  frames : ∀ frame ∈ moment.frames, frame.made.Neutral ∧ ∀ session reply,
    (frame.resume session reply).Within SameKey (fun _ => True) (fun _ => True) session

/-- Going on with a call that leaves the key alone. -/
theorem Moment.Traced.advance {session : Session} {made : Call} {frames : List Frame} {calls : List Call}
    {outcomes : List Outcome} {interaction : Interaction collaborators Session made.Result}
    (htraced : Moment.Traced ⟨session, frames, calls⟩ outcomes) (hneutral : made.Neutral)
    (hspares : interaction.Within SameKey (fun _ => True) (fun _ => True) session) :
    (Moment.advance made frames calls interaction).Traced (ended made interaction ++ outcomes) := by
  obtain ⟨hsession, hframes⟩ := htraced
  cases interaction with
  | done after result => exact ⟨(hsession.of_sameKey hspares.1).of_neutral hneutral, hframes⟩
  | ask after request resume =>
    obtain ⟨hsame, -, hresume⟩ := hspares
    exact ⟨hsession.of_sameKey hsame, List.forall_mem_cons.mpr ⟨⟨hneutral, hresume⟩, hframes⟩⟩

theorem Moment.Traced.begin {moment : Moment} {outcomes : List Outcome} (htraced : moment.Traced outcomes)
    (made : Call) :
    (Moment.advance made moment.frames (made :: moment.calls) (made.program moment.session)).Traced
      (ended made (made.program moment.session) ++ outcomes) := by
  have hspared : made.Neutral → SparesKey made.program →
      (Moment.advance made moment.frames (made :: moment.calls) (made.program moment.session)).Traced
        (ended made (made.program moment.session) ++ outcomes) :=
    fun hneutral hspares => Moment.Traced.advance ⟨htraced.session, htraced.frames⟩ hneutral (hspares moment.session)
  cases made with
  | generate initData customData =>
    refine ⟨Session.Traced.startOver rfl rfl ?_, htraced.frames⟩
    show (if _ then KeyState.init else KeyState.error) ≠ .ready
    split <;> exact nofun
  | clear => exact ⟨Session.Traced.startOver rfl rfl nofun, htraced.frames⟩
  | process license timeout => exact ⟨htraced.session.process license timeout, htraced.frames⟩
  | keyRequest timeout => exact ⟨htraced.session.keyRequest timeout, htraced.frames⟩
  | waitForState state timeout =>
    exact hspared ⟨rfl, fun _ => rfl⟩ (within_waitForState (fun _ => ⟨rfl, rfl, rfl⟩) state timeout)
  | release => exact hspared ⟨rfl, fun _ => rfl⟩ (within_pure trivial)
  | decrypt encryption payload => exact hspared ⟨rfl, fun _ => rfl⟩ fun _ => ⟨⟨rfl, rfl, rfl⟩, trivial⟩
  | setOutputProtection | setSecurityManager | changeOutputLink =>
    exact hspared ⟨rfl, fun _ => rfl⟩ (within_modifyGet fun _ => ⟨rfl, rfl, rfl⟩)

theorem Runs.traced {start : Session} {moment : Moment} {outcomes : List Outcome} (hruns : Runs start moment outcomes)
    (hkey : start.key = none) (hstate : start.state ≠ .ready) : moment.Traced outcomes := by
  induction hruns with
  | start => exact ⟨⟨hkey, fun _ => hkey, fun hready => absurd hready hstate⟩, by simp⟩
  | begin _ made ih => exact ih.begin made
  | @reply session calls above frame below outcomes _ reply ih =>
    obtain ⟨hneutral, hspares⟩ := ih.frames frame (by simp)
    refine Moment.Traced.advance ⟨ih.session, fun other hother => ih.frames other ?_⟩ hneutral (hspares session reply)
    rcases List.mem_append.mp hother with habove | hbelow
    · exact List.mem_append_left _ habove
    · exact List.mem_append_right _ (.tail _ hbelow)

/-! ### What is decrypted -/

namespace Session

/-- Decrypting is over at once with a fault, and neither the payload nor the session is changed. -/
def Refuses (session : Session) (encryption : Sample.Encryption) (payload : Bytes) (fault : Fault) : Prop :=
  Contract.decrypt encryption payload session = .done session (.error fault, payload)

theorem refuses_of_eq {session : Session} {encryption : Sample.Encryption} {payload : Bytes} {fault : Fault}
    (hdecrypt : session.decrypt encryption payload = (.error fault, payload)) :
    session.Refuses encryption payload fault :=
  congrArg (Interaction.done (I := collaborators) session) hdecrypt

theorem refuses_of_none {session : Session} (hkey : session.key = none) (encryption : Sample.Encryption)
    (payload : Bytes) :
    session.Refuses encryption payload (if session.violatesOutput then .hdcpCompliance else .noSession) := by
  apply refuses_of_eq
  rw [decrypt, hkey]
  split <;> rfl

theorem refuses_of_otherKeyId {session : Session} {keyId : Uuid} (hkeyId : session.keyId = some keyId)
    {encryption : Sample.Encryption} (hsome : encryption.keyId ≠ []) (hother : encryption.keyId ≠ keyId.bytes)
    (payload : Bytes) : ∃ fault, session.Refuses encryption payload fault := by
  have hnames : session.namesOtherKey encryption = true := by
    rw [namesOtherKey, hkeyId]
    simp [hsome, hother]
  cases hviolates : session.violatesOutput with
  | true => exact ⟨.hdcpCompliance, refuses_of_eq (if_pos hviolates)⟩
  | false =>
    cases hkey : session.key with
    | none => exact ⟨_, refuses_of_none hkey encryption payload⟩
    | some key =>
      refine ⟨unusable, refuses_of_eq ?_⟩
      rw [decrypt, hviolates, hkey, hnames]
      simp

end Session

/-- What is true of the key at a moment of a run with these outcomes. -/
structure KeyTraced (moment : Moment) (outcomes : List Outcome) : Prop where
  init : moment.session.state = .init → moment.session.key = none
  ready : moment.session.state = .ready → ∃ key, moment.session.key = some key
  /-- No license was accepted since the session last started over. The link may be another one by then. -/
  refuses : ∀ later reset earlier, outcomes = later ++ reset :: earlier → reset.made.startsOver = true →
    (∀ outcome ∈ later, outcome.accepted? = none) → ∀ outputLink encryption payload,
      let session : Session := { moment.session with outputLink }
      session.Refuses encryption payload (if session.violatesOutput then .hdcpCompliance else .noSession)
  /-- The key is from the license that was accepted last, and the session was not started over since. -/
  installed : ∀ key, moment.session.key = some key → ∃ later outcome earlier license,
    outcomes = later ++ outcome :: earlier ∧ outcome.accepted? = some license ∧
      (∀ other ∈ later, other.made.startsOver = false ∧ other.accepted? = none) ∧
      selected? moment.session.keyId license = some key
  refusesOther : ∀ keyId, moment.session.keyId = some keyId → ∀ outputLink encryption payload,
    encryption.keyId ≠ [] → encryption.keyId ≠ keyId.bytes →
      ∃ fault, { moment.session with outputLink }.Refuses encryption payload fault

/-- Every run of a session tells where its key comes from and when it has none. -/
theorem key_traced (helper : Helper) (outputLink : OutputLink) (moment : Moment) :
    (ReachableFrom (.ofHelper helper outputLink) moment ↔
      ∃ outcomes, Runs (.ofHelper helper outputLink) moment outcomes) ∧
    ∀ outcomes, Runs (.ofHelper helper outputLink) moment outcomes → KeyTraced moment outcomes := by
  refine ⟨reachableFrom_iff_exists_runs, fun outcomes hruns => ?_⟩
  obtain ⟨hkey, hinit, hready⟩ := (hruns.traced rfl nofun).session
  refine ⟨hinit, fun hstate => Option.ne_none_iff_exists'.mp (hready hstate), ?_, ?_, ?_⟩
  · rintro later reset earlier rfl hreset hnone outputLink encryption payload
    rw [lastAccepted?_append_startsOver earlier hreset hnone, Option.bind_none] at hkey
    have hdropped : ({ moment.session with outputLink } : Session).key = none := hkey
    exact Session.refuses_of_none hdropped encryption payload
  · intro key hsome
    obtain ⟨license, hlast, hselected⟩ := Option.bind_eq_some_iff.mp (hkey.symm.trans hsome)
    obtain ⟨later, outcome, earlier, heq, haccepted, hlater⟩ := exists_of_lastAccepted? hlast
    exact ⟨later, outcome, earlier, license, heq, haccepted, hlater, hselected⟩
  · intro keyId hkeyId outputLink encryption payload hsome hother
    have hnamed : ({ moment.session with outputLink } : Session).keyId = some keyId := hkeyId
    exact Session.refuses_of_otherKeyId hnamed hsome hother payload

/-! ### A license and none -/

def licenseOfStream : LicenseData := ⟨jsonOfStream.render⟩

theorem selected?_licenseOfStream : selected? (some keyIdOfStream) licenseOfStream = some keyOfStream := by
  decide +kernel

/-- The session keeps the key from its license when the next answer comes without one. It has no key once it is cleared. -/
theorem key_traced_of_missing_license :
    let helper : Helper := { helperOfStream with held := { keyIds := [keyIdOfStream] } }
    let start := Session.ofHelper helper {}
    let timeout := Duration.ofSeconds 1
    let outcomes : List Outcome :=
      [⟨.process none timeout, .error unusable⟩, ⟨.process (some licenseOfStream) timeout, .ok ()⟩,
        ⟨.keyRequest timeout, some (keyRequestFor helper keyIdOfStream)⟩, ⟨.generate [] none, ()⟩]
    (∃ moment, Runs start moment outcomes ∧ ReachableFrom start moment ∧ moment.session.key = some keyOfStream ∧
      (∃ later outcome earlier license, outcomes = later ++ outcome :: earlier ∧ outcome.accepted? = some license ∧
        (∀ other ∈ later, other.made.startsOver = false ∧ other.accepted? = none) ∧
        selected? moment.session.keyId license = some keyOfStream) ∧
      ∃ fault, moment.session.Refuses { keyId := Uuid.zero.bytes } [1, 2] fault) ∧
    ∃ moment, Runs start moment (⟨.clear, ()⟩ :: outcomes) ∧ moment.session.Refuses {} [1, 2] .noSession := by
  intro helper start timeout outcomes
  let pending : Session := { start with keyId := some keyIdOfStream, state := .pending }
  let ready : Session := { pending with key := some keyOfStream, state := .ready, stateChanged := ⟨true⟩ }
  have hpending : Runs start ⟨pending, [], [.keyRequest timeout, .generate [] none]⟩ (outcomes.drop 2) :=
    (Runs.start.begin (.generate [] none)).begin (.keyRequest timeout)
  have hprocess : pending.process (some licenseOfStream) = (.ok (), ready) :=
    Session.process_of_select? selected?_licenseOfStream
  have hready : (Call.process (some licenseOfStream) timeout).program pending = .done ready (.ok ()) :=
    congrArg (fun answer : Except Fault Unit × Session => Interaction.done (I := collaborators) answer.2 answer.1)
      hprocess
  have hkept : Runs start ⟨{ ready with state := .error }, [], _⟩ outcomes :=
    (hpending.ends hready).begin (.process none timeout)
  have hcleared := hkept.begin .clear
  obtain ⟨hreachable, htraced⟩ := key_traced helper {} ⟨{ ready with state := .error }, [], _⟩
  refine ⟨⟨_, hkept, hreachable.mpr ⟨_, hkept⟩, rfl, (htraced _ hkept).installed _ rfl, ?_⟩, _, hcleared, ?_⟩
  · exact (htraced _ hkept).refusesOther keyIdOfStream rfl {} _ _ (by decide) (by decide)
  · exact ((key_traced helper {} _).2 _ hcleared).refuses [] ⟨.clear, ()⟩ _ rfl rfl (by simp) {} {} [1, 2]

end ContentProtection.ClearKey
