import ContentProtection.Context
import ContentProtection.Helper.Systems
import ContentProtection.Proofs.ClearKey.Run
import ContentProtection.Proofs.Native.OutputGate

/-!
# Output protection

Sessions that decrypt refuse to do so in the same circumstances, whether a module serves them or not: output protection is enabled, the content requires HDCP 2.2, the source is in ultra high definition and the link is not HDCP 2.2, all of it at the moment when decrypting begins. Nothing else is looked at before that, and nothing else is reported like that.
-/

namespace ContentProtection

open Session (Contract)

/-- Decrypting is forbidden for a helper over an output link, while output protection is enabled or not. -/
structure OutputLink.Forbids (link : OutputLink) (helper : Helper) (outputProtection : Bool) : Prop where
  enabled : outputProtection = true
  hdcp22Required : helper.info.hdcp22Required = true
  sourceUhd : link.sourceUhd = true
  not_hdcp22 : link.hdcp22 = false

variable {context : Context} {helper : Helper}

theorem OutputLink.forbids_iff {link : OutputLink} {outputProtection : Bool} :
    link.Forbids helper outputProtection ↔
      (outputProtection && link.violates helper.info.hdcp22Required) = true := by
  rw [OutputLink.violates]
  simp only [Bool.and_eq_true, Bool.not_eq_true']
  exact ⟨fun ⟨henabled, hrequired, hsource, hlink⟩ => ⟨henabled, ⟨hrequired, hsource⟩, hlink⟩,
    fun ⟨henabled, ⟨hrequired, hsource⟩, hlink⟩ => ⟨henabled, hrequired, hsource, hlink⟩⟩

/-! ### Native sessions -/

/-- What is true of decrypting at a moment of a native session. -/
structure Native.Withholds (context : Context) (helper : Helper) (moment : Native.Moment) : Prop where
  /-- Output protection is enabled as it was set last, and as configured before that. -/
  outputProtection_eq :
    moment.session.outputProtection = moment.history.outputProtection context.configuration.outputProtection
  /-- The output link is as the platform gave it last, and that of the context before that. -/
  outputLink_eq : moment.session.outputLink = moment.history.outputLink context.outputLink
  /-- Decrypting is over at once, nothing is asked for and nothing changes. -/
  refuses : moment.session.outputLink.Forbids helper moment.session.outputProtection → ∀ encryption payload,
    moment.begin (.call (.decrypt encryption payload)) =
      { moment with
        history :=
          .ended ⟨.call (.decrypt encryption payload), moment.session, [], (.error .hdcpCompliance, payload)⟩ ::
          .began (.call (.decrypt encryption payload)) :: moment.history }
  /-- The fault is reported only of output protection and the link as they were when decrypting began. -/
  refused_iff : ∀ encryption payload entry asked result earlier,
    moment.history = .ended ⟨.call (.decrypt encryption payload), entry, asked, result⟩ :: earlier →
      ∃ (since before : Native.History),
        earlier = since ++ .began (.call (.decrypt encryption payload)) :: before ∧
        entry.outputProtection = before.outputProtection context.configuration.outputProtection ∧
        entry.outputLink = before.outputLink context.outputLink ∧
        (result.1 = .error .hdcpCompliance ↔ entry.outputLink.Forbids helper entry.outputProtection)

theorem Native.begin_decrypt_of_violates {moment : Native.Moment} (hviolates : moment.session.violatesOutput = true)
    (encryption : Sample.Encryption) (payload : Bytes) :
    moment.begin (.call (.decrypt encryption payload)) =
      { moment with
        history :=
          .ended ⟨.call (.decrypt encryption payload), moment.session, [], (.error .hdcpCompliance, payload)⟩ ::
          .began (.call (.decrypt encryption payload)) :: moment.history } := by
  have hdone : (Native.Activity.call (.decrypt encryption payload)).program moment.session =
      .done moment.session (.error .hdcpCompliance, payload) := by
    show (if moment.session.violatesOutput = true then _ else _ : Native.Operation _) moment.session = _
    rw [if_pos hviolates]
    rfl
  rw [Native.Moment.begin, hdone]
  rfl

theorem Native.withholds {moment : Native.Moment}
    (hreach : Native.ReachableFrom (context.nativeSession helper) moment) : Native.Withholds context helper moment := by
  have hmet := Native.gate_met (context.nativeSession helper).setting context.configuration.outputProtection
    context.outputLink
  have hfits := hmet.fits_from ⟨rfl, rfl, rfl⟩ hreach
  have hforbids : ∀ session : Native.Session, session.setting = (context.nativeSession helper).setting →
      (session.outputLink.Forbids helper session.outputProtection ↔ session.violatesOutput = true) := by
    intro session hsetting
    rw [OutputLink.forbids_iff, Native.Session.violatesOutput, hsetting]
    rfl
  obtain ⟨hsetting, hflag, hlink⟩ := hfits.holds
  refine ⟨hflag, hlink, ?_, ?_⟩
  · intro hforbidden
    exact begin_decrypt_of_violates ((hforbids _ hsetting).mp hforbidden)
  · intro encryption payload entry asked result earlier hended
    obtain ⟨hentry, hgated⟩ := hfits.report _ _ hended
    obtain ⟨before, since, hbefore, rfl, hearlier⟩ := hreach.begun.ended _ _ hended
    obtain ⟨-, hflag', hlink'⟩ := (hmet.fits_from ⟨rfl, rfl, rfl⟩ hbefore).holds
    exact ⟨since, before.history, hearlier, hflag', hlink', hgated.refused_iff.trans (hforbids _ hentry).symm⟩

/-! ### Clear key sessions -/

/-- What is true of decrypting at a moment of a clear key session. -/
structure ClearKey.Withholds (context : Context) (helper : Helper) (moment : ClearKey.Moment) : Prop where
  outputProtection_eq :
    moment.session.outputProtection = moment.outputProtection context.configuration.outputProtection
  outputLink_eq : moment.session.outputLink = moment.outputLink context.outputLink
  /-- Decrypting asks for nothing and leaves the session as it is. -/
  decrypts : ∀ encryption payload, ∃ result,
    Contract.decrypt encryption payload moment.session = .done moment.session result ∧
      (result.1 = .error .hdcpCompliance ↔
        moment.session.outputLink.Forbids helper moment.session.outputProtection) ∧
      (moment.session.outputLink.Forbids helper moment.session.outputProtection → result.2 = payload)

theorem ClearKey.decryptFrom_ne (key : ClearKey.ContentKey) (counter : Nat) (subsamples : List Sample.Subsample)
    (payload : Bytes) : (ClearKey.decryptFrom key counter subsamples payload).1 ≠ .error .hdcpCompliance := by
  unfold ClearKey.decryptFrom
  dsimp only
  split
  · exact nofun
  · split <;> exact nofun

/-- Only the link is reported as the fault of the link. -/
theorem ClearKey.Session.decrypt_refused_iff (session : ClearKey.Session) (encryption : Sample.Encryption)
    (payload : Bytes) :
    (session.decrypt encryption payload).1 = .error .hdcpCompliance ↔ session.violatesOutput = true := by
  unfold ClearKey.Session.decrypt
  split
  · rename_i hviolates
    exact ⟨fun _ => hviolates, fun _ => rfl⟩
  · rename_i hviolates
    refine ⟨fun hrefused => absurd hrefused ?_, fun hviolates' => absurd hviolates' hviolates⟩
    split
    · exact nofun
    · split
      · exact nofun
      · split
        · exact nofun
        · exact ClearKey.decryptFrom_ne _ _ _ _

theorem ClearKey.Session.decrypt_of_violates {session : ClearKey.Session} (hviolates : session.violatesOutput = true)
    (encryption : Sample.Encryption) (payload : Bytes) :
    session.decrypt encryption payload = (.error .hdcpCompliance, payload) :=
  if_pos hviolates

theorem ClearKey.withholds {moment : ClearKey.Moment}
    (hreach : ClearKey.ReachableFrom (context.clearKeySession helper) moment) :
    ClearKey.Withholds context helper moment := by
  obtain ⟨hhelper, hlink, hflag, -⟩ := hreach.guarded
  have hforbids : moment.session.outputLink.Forbids helper moment.session.outputProtection ↔
      moment.session.violatesOutput = true := by
    rw [OutputLink.forbids_iff, ClearKey.Session.violatesOutput, hhelper]
    rfl
  refine ⟨hflag, hlink, fun encryption payload => ⟨_, rfl, ?_, ?_⟩⟩
  · rw [hforbids]
    exact moment.session.decrypt_refused_iff encryption payload
  · intro hforbidden
    rw [ClearKey.Session.decrypt_of_violates (hforbids.mp hforbidden)]

/-! ### Sessions of a context -/

/-- Every session that a context makes for protected content, at every moment of every run of it, refuses to decrypt if and only if the output link forbids it. Then nothing is asked for, the payload and the session stay as they were, and no other fault is reported. -/
theorem decrypt_refused_iff_forbidden {session : Context.AnySession}
    (hcreate : context.createSession helper = .ok session)
    (hbackend : context.configuration.backend ≠ .unprotected) :
    (∃ start, session = .native start ∧
      ∀ moment, Native.ReachableFrom start moment → Native.Withholds context helper moment) ∨
    ∃ start, session = .clearKey start ∧
      ∀ moment, ClearKey.ReachableFrom start moment → ClearKey.Withholds context helper moment := by
  rw [Context.createSession, if_neg hbackend] at hcreate
  split at hcreate
  · cases hcreate
    exact .inr ⟨_, rfl, fun _ => ClearKey.withholds⟩
  · split at hcreate
    · cases hcreate
      exact .inl ⟨_, rfl, fun _ => Native.withholds⟩
    · cases hcreate

/-- A player of ultra high definition, at first over a link that is HDCP 2.2. -/
def contextOfUhd : Context :=
  { configuration := { platform := { sourceUhd := true, hdcp22 := true } }, hasModule := true }

def helperOfUhd : Helper := Helper.ofInfo (.ofSystem .widevine) { hdcp22Required := true }

/-- Without a native session, decrypting says so while the link is HDCP 2.2. Once it is not any more, the link is reported. Output protection was disabled in between and enabled again. -/
theorem decrypt_refused_iff_forbidden_of_uhd :
    ∃ start connected moment, contextOfUhd.createSession helperOfUhd = .ok (.native start) ∧
      Native.ReachableFrom start connected ∧ Native.ReachableFrom start moment ∧
      connected.history.outputLink contextOfUhd.outputLink = { sourceUhd := true, hdcp22 := true } ∧
      (connected.begin (.call (.decrypt {} [1, 2]))).history =
        .ended ⟨.call (.decrypt {} [1, 2]), connected.session, [], (.error .noSession, [1, 2])⟩ ::
          .began (.call (.decrypt {} [1, 2])) :: connected.history ∧
      moment.history.outputProtection contextOfUhd.configuration.outputProtection = true ∧
      moment.history.outputLink contextOfUhd.outputLink = { sourceUhd := true } ∧
      (moment.begin (.call (.decrypt {} [1, 2]))).history =
        .ended ⟨.call (.decrypt {} [1, 2]), moment.session, [], (.error .hdcpCompliance, [1, 2])⟩ ::
          .began (.call (.decrypt {} [1, 2])) :: moment.history := by
  have hcreate : contextOfUhd.createSession helperOfUhd = .ok (.native (contextOfUhd.nativeSession helperOfUhd)) := rfl
  obtain ⟨connected, hconnected, hlinked, hmissing⟩ : ∃ connected,
      Native.ReachableFrom (contextOfUhd.nativeSession helperOfUhd) connected ∧
      connected.history.outputLink contextOfUhd.outputLink = { sourceUhd := true, hdcp22 := true } ∧
      (connected.begin (.call (.decrypt {} [1, 2]))).history =
        .ended ⟨.call (.decrypt {} [1, 2]), connected.session, [], (.error .noSession, [1, 2])⟩ ::
          .began (.call (.decrypt {} [1, 2])) :: connected.history :=
    ⟨_, ⟨[.begin (.call (.setOutputProtection false)), .begin (.call (.setOutputProtection true))], rfl⟩, rfl, rfl⟩
  obtain ⟨moment, hreach, htold, hlink⟩ : ∃ moment,
      Native.ReachableFrom (contextOfUhd.nativeSession helperOfUhd) moment ∧
      moment.history.outputProtection contextOfUhd.configuration.outputProtection = true ∧
      moment.history.outputLink contextOfUhd.outputLink = { sourceUhd := true } :=
    ⟨_, ⟨[.begin (.call (.setOutputProtection false)), .begin (.call (.setOutputProtection true)),
      .begin (.call (.changeOutputLink { sourceUhd := true }))], rfl⟩, rfl, rfl⟩
  rcases decrypt_refused_iff_forbidden hcreate (by decide) with ⟨start, hstart, hwithholds⟩ | ⟨start, hstart, -⟩
  · cases hstart
    have hmoment := hwithholds moment hreach
    have hforbids : moment.session.outputLink.Forbids helperOfUhd moment.session.outputProtection := by
      rw [hmoment.outputLink_eq, hmoment.outputProtection_eq, hlink, htold]
      exact ⟨rfl, rfl, rfl, rfl⟩
    refine ⟨_, connected, moment, hcreate, hconnected, hreach, hlinked, hmissing, htold, hlink, ?_⟩
    rw [hmoment.refuses hforbids]
  · cases hstart

end ContentProtection
