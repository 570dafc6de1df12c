import ContentProtection.Proofs.Native.Alike
import ContentProtection.Proofs.Native.Footprint
import ContentProtection.Proofs.Native.Host
import ContentProtection.Proofs.Native.Lifecycle

/-!
# Sessions with one host

What a host can count on when nobody else makes calls: events touch neither the state nor the open native session and give their handles back. So between its calls the host finds the session as the last one left it, and what the module was fed is what the host has given to be processed.
-/

namespace ContentProtection.Native

open ContentProtection.Session (Fault KeyRequest Request)
open Outline

variable {given : Option LicenseData} {pinned : Nat} {session : Session} {asked : List Asked} {history : History}

/-! ### The outline -/

/-- What a host goes by is as it was. -/
structure AsLeft (before after : Session) : Prop where
  handles_eq : after.handles = before.handles
  state_eq : after.state = before.state
  opened_eq : after.opened = before.opened

instance : IsPreorder Session AsLeft where
  refl _ := ⟨rfl, rfl, rfl⟩
  trans _ _ _ hfirst hthen :=
    ⟨hthen.handles_eq.trans hfirst.handles_eq, hthen.state_eq.trans hfirst.state_eq,
      hthen.opened_eq.trans hfirst.opened_eq⟩

/-- All licenses that were fed so far are the one that is given, if one is. -/
def FedOnly (given : Option LicenseData) (history : History) : Prop :=
  ∀ number bytes, .asked (.update number bytes) ∈ history → given.map LicenseData.bytes = some bytes

/-- The outline for events and for the calls of one host, which processes no license but the given one. -/
def attended (given : Option LicenseData) : Outline where
  Holds _ _ history := FedOnly given history
  Rely pinned before after := 0 < pinned ∨ before.handles = 0 → AsLeft before after
  Report record session _ :=
    match record with
    | ⟨.event _, entry, _, _⟩ => AsLeft entry session
    | ⟨.call (.generate _ _), entry, _, _⟩ | ⟨.call (.process _ _), entry, _, _⟩ => session.handles = entry.handles
    | ⟨.call (.keyRequest _), entry, _, request⟩ =>
      session.handles = entry.handles ∧ (request.isSome → session.state = .pending)
    | ⟨.call .release, entry, _, _⟩ => session.handles = entry.handles - 1
    | _ => True
  rely_refl _ _ _ := Std.Refl.refl _
  rely_trans hfirst hthen hpinned :=
    have hleft := hfirst hpinned
    IsTrans.trans _ _ _ hleft (hthen (hpinned.imp_right hleft.handles_eq.trans))

theorem FedOnly.cons {entry : Entry} (hfed : FedOnly given history)
    (hentry : ∀ number bytes, entry = .asked (.update number bytes) → given.map LicenseData.bytes = some bytes) :
    FedOnly given (entry :: history) := by
  intro number bytes hmem
  rcases List.mem_cons.mp hmem with heq | hmem
  · exact hentry number bytes heq.symm
  · exact hfed number bytes hmem

theorem FedOnly.began (hfed : FedOnly given history) (activity : Activity) :
    FedOnly given (.began activity :: history) := hfed.cons fun _ _ => nofun

/-! ### Confined operations -/

/-- What a host goes by is as it was, except for some parts. -/
structure LeftBut (parts : List Part) (before after : Session) : Prop where
  handles_eq : after.handles = before.handles
  state_eq : .state ∉ parts → after.state = before.state
  opened_eq : .opened ∉ parts → after.opened = before.opened

/-- While handles are in use, what an operation does not change by itself is as the operation left it. -/
theorem overlooks_attended {parts : List Part} {may : Request → Prop} (hhandles : .handles ∉ parts)
    (hmay : ∀ number bytes, may (.update number bytes) → given.map LicenseData.bytes = some bytes)
    (hpinned : 0 < pinned) :
    Overlooks (attended given) pinned parts may (LeftBut parts) where
  holds_same _ hholds := hholds
  holds_asked := by
    intro session request history hrequest hholds
    refine FedOnly.cons hholds fun number bytes heq => ?_
    cases heq
    exact hmay number bytes (hrequest.resolve_left nofun)
  holds_replied _ _ hholds := FedOnly.cons hholds fun _ _ => nofun
  related_same hsame := ⟨hsame.same _ hhandles, hsame.same _, hsame.same _⟩
  related_rely hrely :=
    have hleft := hrely (.inl hpinned)
    ⟨hleft.handles_eq, fun _ => hleft.state_eq, fun _ => hleft.opened_eq⟩
  related_trans hfirst hthen :=
    ⟨hthen.handles_eq.trans hfirst.handles_eq,
      fun hstate => (hthen.state_eq hstate).trans (hfirst.state_eq hstate),
      fun hopened => (hthen.opened_eq hopened).trans (hfirst.opened_eq hopened)⟩

/-! ### Events -/

theorem attended_event (event : Event) : (attended given).MetBy (.event event) := by
  intro pinned session history (hfed : FedOnly given history) _
  have hbegan : FedOnly given (.began (.event event) :: history) := hfed.began _
  have howes : ∀ {after asked history}, FedOnly given history → AsLeft session after →
      (attended given).Owes (.event event) session pinned after asked history () :=
    fun hfed' hleft => ⟨hfed'.cons fun _ _ => nofun, fun _ => hleft, hleft⟩
  show (attended given).Achieves (pinned + 1) (deliver event session) _ _ _
  by_cases hhandle : 0 < session.handles
  · rw [deliver_of_handle event hhandle]
    have hparts : ∀ part ∈ [Part.handles, .state, .opened], part ∉ event.changes := by
      cases event <;> simp [Event.changes]
    have hoverlooks : Overlooks (attended given) (pinned + 1) event.changes (fun _ => False) (LeftBut event.changes) :=
      overlooks_attended (hparts .handles (by simp)) (fun _ _ => False.elim) (Nat.succ_pos pinned)
    refine achieves_andThen.mpr ((confined_handle event).achieves hoverlooks hbegan ?_)
    rintro handled asked' history' _ hfed' ⟨hhandles, hstate, hopened⟩ _
    replace hhandles : handled.handles = session.handles + 1 := hhandles
    rw [release_of_shared (by omega)]
    refine howes hfed' ⟨?_, hstate (hparts _ (by simp)), hopened (hparts _ (by simp))⟩
    show handled.handles - 1 = session.handles
    rw [hhandles, Nat.add_sub_cancel]
  · have hdone : deliver event session = .done session () := by
      show (if session.handles = 0 then _ else _ : Operation Unit) session = _
      rw [if_pos (by omega)]
      rfl
    rw [hdone]
    exact howes hbegan (Std.Refl.refl session)

/-! ### Calls at rest -/

/-- A call that gives no handle up relies on the one that it borrows and owes nothing to others. -/
theorem owes_of_attended {made : Call} {entry after : Session} {result : made.Result} (hhandle : 0 < entry.handles)
    (hfed : FedOnly given history)
    (hreport : (attended given).Report ⟨.call made, entry, asked, result⟩ after history) :
    (attended given).Owes (.call made) entry 0 after asked history result :=
  ⟨hfed.cons fun _ _ => nofun, fun hpinned => absurd hhandle (by omega), hreport⟩

/-- A call that touches no handles. -/
theorem attended_confined (made : Call) (hhandles : .handles ∉ made.changes)
    (hmay : ∀ number bytes, made.mayAsk (.update number bytes) → given.map LicenseData.bytes = some bytes)
    (hreport : ∀ entry asked result after history, after.handles = entry.handles →
      (attended given).Report ⟨.call made, entry, asked, result⟩ after history) :
    (attended given).MetAtRest (.call made) := by
  intro session history (hfed : FedOnly given history) hhandle
  have hpins : 0 < (Activity.call made).pins 0 ∧ 0 < session.handles := by
    cases made with
    | release => simp [Call.changes] at hhandles
    | _ => simpa [Activity.pins, Activity.hasHandle] using hhandle
  refine (confined_call made).achieves (overlooks_attended hhandles hmay hpins.1) (hfed.began _) ?_
  rintro after asked history result hfed' ⟨hhandles', -⟩ _
  exact owes_of_attended hpins.2 hfed' (hreport _ _ _ _ _ hhandles')

theorem attended_generate (initData : Bytes) (customData : Option Bytes) :
    (attended given).MetAtRest (.call (.generate initData customData)) :=
  attended_confined _ (by simp [Call.changes]) (by simp [Call.mayAsk]) fun _ _ _ _ _ => id

theorem attended_process (license : Option LicenseData) (timeout : Duration) :
    (attended license).MetAtRest (.call (.process license timeout)) := by
  refine attended_confined _ (by simp [Call.changes]) ?_ fun _ _ _ _ _ => id
  rintro number bytes ⟨given, _, rfl, hupdate⟩
  cases hupdate
  rfl

/-- The state is `pending` once a challenge is handed out. -/
theorem attended_handOut (isReady : Bool) {post : Session → List Asked → History → Option KeyRequest → Prop}
    (hnext : ∀ (after : Session) request, after.handles = session.handles →
      (request.isSome → after.state = .pending) → post after asked history request) :
    (attended given).Achieves pinned (handOut isReady session) asked history post := by
  refine achieves_ite.mpr ⟨fun _ => hnext session none rfl nofun, fun _ => ?_⟩
  refine achieves_bind.mpr (achieves_modifyGet.mpr (achieves_ite.mpr ⟨fun _ => hnext _ none rfl nofun, fun _ => ?_⟩))
  exact achieves_bind.mpr (achieves_modify.mpr (hnext _ _ rfl fun _ => rfl))

theorem attended_keyRequest (timeout : Duration) : (attended given).MetAtRest (.call (.keyRequest timeout)) := by
  intro session history (hfed : FedOnly given history) hhandle
  have hoverlooks : Overlooks (attended given) 1 [.latch .challengeReady] (fun _ => False)
      (LeftBut [.latch .challengeReady]) :=
    overlooks_attended (by simp) (fun _ _ => False.elim) Nat.one_pos
  show (attended given).Achieves 1 (keyRequest timeout session) _ _ _
  rw [keyRequest_eq]
  refine achieves_bind.mpr (achieves_modify.mpr (achieves_bind.mpr ?_))
  refine (confined_await .challengeReady timeout (by simp)).achieves hoverlooks (hfed.began _) ?_
  rintro waited asked history isReady hfed' ⟨hhandles, -⟩ _
  refine attended_handOut isReady fun after request hhandles' hpending => ?_
  exact owes_of_attended (by simpa [Activity.hasHandle] using hhandle) hfed' ⟨hhandles'.trans hhandles, hpending⟩

/-- With the last handle given up, no event changes anything while the native session is being closed. -/
theorem attended_release : (attended given).MetAtRest (.call .release) := by
  intro session history (hfed : FedOnly given history) hhandle
  have hhandle : 0 < session.handles := by simpa [Activity.hasHandle] using hhandle
  have hbegan : FedOnly given (.began (.call .release) :: history) := hfed.began _
  refine achieves_bind.mpr (achieves_get.mpr (achieves_bind.mpr (achieves_modify.mpr (achieves_ite.mpr ⟨?_, ?_⟩))))
  · intro hgone
    refine achieves_bind.mpr (achieves_get.mpr ?_)
    dsimp only
    cases session.opened with
    | none => exact owes_of_attended hhandle hbegan rfl
    | some number =>
      refine achieves_bind.mpr (achieves_modify.mpr (achieves_ask.mpr ⟨hbegan.cons fun _ _ => nofun, ?_⟩))
      intro closed history' _ hback
      have hfed' : FedOnly given history' := hback.holds
      exact owes_of_attended hhandle (hfed'.cons fun _ _ => nofun) (hback.rely rfl (.inr hgone)).handles_eq
  · intro _
    exact owes_of_attended hhandle hbegan rfl

/-! ### Moments at rest -/

/-- What is known of a session at rest. -/
structure Rests (given : Option LicenseData) (handles : Nat) (moment : Moment) : Prop where
  kept : Custody 0 moment.session.holding moment.history.marks
  fed : FedOnly given moment.history
  handles_eq : moment.session.handles = handles

namespace Rests

variable {before after : Moment} {handles : Nat}

theorem fed_of_undertakes {activity : Activity} (hrests : Rests given handles before)
    (hundertakes : Undertakes before activity after) (hmet : (attended given).MetAtRest activity) :
    FedOnly given after.history :=
  (hundertakes.fits attended_event hmet hrests.fed).holds

/-- What both outlines know at the end of an activity. -/
theorem does {activity : Activity} {result : activity.Result} (hrests : Rests given handles before)
    (hdoes : Does before activity result after) (hmet : (attended given).MetAtRest activity) :
    Rests given after.session.handles after ∧ ∃ asked earlier,
      (attended given).Report ⟨activity, before.session, asked, result⟩ after.session earlier ∧
        custody.Report ⟨activity, before.session, asked, result⟩ after.session earlier := by
  obtain ⟨hkept, asked, earlier, hended, hreport⟩ :=
    hdoes.met (fun _ => custody_met _) (custody_met activity).atRest hrests.kept
  obtain ⟨hfed, asked', earlier', hended', hreport'⟩ := hdoes.met attended_event hmet hrests.fed
  cases hended.symm.trans hended'
  exact ⟨⟨hkept, hfed, rfl⟩, asked, earlier, hreport', hreport⟩

theorem event {event : Event} (hrests : Rests given handles before) (hdoes : Does before (.event event) () after) :
    Rests given handles after ∧ AsLeft before.session after.session := by
  obtain ⟨hrests', _, _, hleft, -⟩ := hrests.does hdoes (attended_event event).atRest
  exact ⟨⟨hrests'.kept, hrests'.fed, hleft.handles_eq.trans hrests.handles_eq⟩, hleft⟩

theorem idles (hrests : Rests given handles before) (hidle : Idles before after) :
    Rests given handles after ∧ AsLeft before.session after.session := by
  induction hidle with
  | refl => exact ⟨hrests, Std.Refl.refl _⟩
  | tail _ hnext ih =>
    obtain ⟨event, hdoes⟩ := hnext
    obtain ⟨hafter, hleft⟩ := ih.1.event hdoes
    exact ⟨hafter, IsTrans.trans _ _ _ ih.2 hleft⟩

theorem fed_of_waits (hrests : Rests given handles before) (hwait : Waits before after) :
    FedOnly given after.history := by
  rcases hwait with hidle | ⟨rest, event, hidle, hevent⟩
  · exact (hrests.idles hidle).1.fed
  · exact (hrests.idles hidle).1.fed_of_undertakes hevent (attended_event event).atRest

theorem generate {initData : Bytes} {customData : Option Bytes} (hrests : Rests given handles before)
    (hdoes : Does before (.call (.generate initData customData)) () after) : Rests given handles after := by
  obtain ⟨hrests', _, _, hhandles, -⟩ := hrests.does hdoes (attended_generate initData customData)
  exact ⟨hrests'.kept, hrests'.fed, hhandles.trans hrests.handles_eq⟩

theorem keyRequest {timeout : Duration} {request : Option KeyRequest} (hrests : Rests given handles before)
    (hdoes : Does before (.call (.keyRequest timeout)) request after) :
    Rests given handles after ∧ (request.isSome → after.session.state = .pending) := by
  obtain ⟨hrests', _, _, ⟨hhandles, hpending⟩, -⟩ := hrests.does hdoes (attended_keyRequest timeout)
  exact ⟨⟨hrests'.kept, hrests'.fed, hhandles.trans hrests.handles_eq⟩, hpending⟩

/-- A license that was processed leaves the session ready with a native session open, or with the state at error. -/
theorem process {license : Option LicenseData} {timeout : Duration} {result : Except Fault Unit}
    (hrests : Rests license handles before) (hdoes : Does before (.call (.process license timeout)) result after) :
    Rests license handles after ∧
      (result = .ok () → after.session.state = .ready ∧ ∃ number, after.session.opened = some number) := by
  obtain ⟨hrests', _, _, hhandles, hprocessed⟩ := hrests.does hdoes (attended_process license timeout)
  refine ⟨⟨hrests'.kept, hrests'.fed, hhandles.trans hrests.handles_eq⟩, ?_⟩
  rintro rfl
  obtain ⟨⟨⟨status, hresolved, hdecides, -⟩, hstate, -⟩, -⟩ := hprocessed
  cases hdecides
  obtain ⟨number, _, hopened, -⟩ := hresolved
  exact ⟨hstate, number, hopened⟩

theorem release (hrests : Rests given handles before) (hdoes : Does before (.call .release) () after) :
    Rests given (handles - 1) after := by
  obtain ⟨hrests', _, _, hhandles, -⟩ := hrests.does hdoes attended_release
  exact ⟨hrests'.kept, hrests'.fed, hhandles.trans (congrArg (· - 1) hrests.handles_eq)⟩

/-! A script that is performed from a moment at rest either has not come to the end of its first step, or goes on after it. -/

section

variable {α : Type} {steps : List Step} {value : Option α}

/-- The first step is not over yet, so there is nothing to show. -/
structure Unfinished (given : Option LicenseData) (steps : List Step) (after : Moment) (value : Option α) : Prop where
  steps_eq : steps = []
  value_eq : value = none
  fed : FedOnly given after.history

theorem done {result : α} (hrests : Rests given handles before)
    (hperforms : Performs (.done result) before steps after value) :
    Unfinished given steps after value ∨
      steps = [] ∧ value = some result ∧ Rests given handles after ∧ AsLeft before.session after.session := by
  cases hperforms with
  | wait hwait => exact .inl ⟨rfl, rfl, hrests.fed_of_waits hwait⟩
  | done hidle => exact .inr ⟨rfl, rfl, hrests.idles hidle⟩

theorem look {next : Session → Script α} (hrests : Rests given handles before)
    (hperforms : Performs (.look next) before steps after value) :
    Unfinished given steps after value ∨ ∃ rest, Rests given handles rest ∧ AsLeft before.session rest.session ∧
      Performs (next rest.session) rest steps after value := by
  cases hperforms with
  | wait hwait => exact .inl ⟨rfl, rfl, hrests.fed_of_waits hwait⟩
  | look hidle hrest =>
    obtain ⟨hidled, hleft⟩ := hrests.idles hidle
    exact .inr ⟨_, hidled, hleft, hrest⟩

theorem call {made : Call} {next : made.Result → Script α} (hrests : Rests given handles before)
    (hmet : (attended given).MetAtRest (.call made)) (hperforms : Performs (.call made next) before steps after value) :
    Unfinished given steps after value ∨ ∃ rest result ended later, steps = .call made result :: later ∧
      Rests given handles rest ∧ Does rest (.call made) result ended ∧
      Performs (next result) ended later after value := by
  cases hperforms with
  | wait hwait => exact .inl ⟨rfl, rfl, hrests.fed_of_waits hwait⟩
  | begun hidle hcall => exact .inl ⟨rfl, rfl, (hrests.idles hidle).1.fed_of_undertakes hcall hmet⟩
  | call hidle hcall hrest => exact .inr ⟨_, _, _, _, rfl, (hrests.idles hidle).1, hcall, hrest⟩

end

/-- Without a handle, every native session has been closed, and only once. -/
theorem closed_once (hrests : Rests given 0 before) {number : Nat} (hpos : 0 < number)
    (hle : number ≤ before.history.marks.count .constructed) : before.history.marks.count (.closed number) = 1 := by
  have hledger : Ledger before.session.opened before.session.constructed before.history.marks := hrests.kept.ledger
  have hopened : before.session.opened = none := hrests.kept.gone hrests.handles_eq
  rw [hledger.count_constructed] at hle
  rw [hledger.count_closed, if_pos ⟨hpos, hle, by simp [hopened]⟩]

end Rests

end ContentProtection.Native
