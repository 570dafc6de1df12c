import ContentProtection.Proofs.Native.Footprint
import ContentProtection.Proofs.Native.Readiness

/-!
# Renewals

What a license comes to when an earlier one was processed with the same native session. The key material stays as the earlier exchange left it until a key update is delivered, and whether the module took the new license is not looked at. So without a key update in between, the renewal comes to what the earlier exchange came to.
-/

namespace ContentProtection.Native

open ContentProtection.Session (Fault Reply Request ask)
open Outline

variable {setting : Setting} {moment : Moment} {history : History}

/-! ### What outlasts an exchange -/

/-- A license was processed with some result while a native session was open, and the key was neither updated nor forgotten since. -/
def Judged (history : History) (result : Except Fault Unit) : Prop :=
  ∃ later license timeout entry asked earlier number,
    history = later ++ .ended ⟨.call (.process license timeout), entry, asked, result⟩ :: earlier ∧
    Unclosed earlier number ∧ ∀ keyId, .keyed keyId ∉ History.marks later

/-- Key material that an exchange with such a result has left. Either the status is known or there is no key to ask about. -/
structure Settles (key : KeyMaterial) (result : Except Fault Unit) : Prop where
  result_eq : result = outcome key.status
  keyId_eq : key.status = none → key.keyId = []

/-- A native session that is open now was constructed after the key was last forgotten. -/
structure Numbered (holding : Holding) (history : History) : Prop where
  count_constructed : history.marks.count .constructed ≤ holding.constructed
  opened_since : ∀ later earlier number, history.marks = later ++ .keyed none :: earlier →
    holding.opened = some number → earlier.count .constructed < number

structure Upheld (holding : Holding) (history : History) : Prop extends Numbered holding history where
  settles : 0 < holding.handles → ∀ result, Judged history result → Settles holding.key result

/-- Only constructions make native sessions and forget the key by themselves. -/
theorem mark?_request {request : Request} (hrequest : ∀ initData customData, request ≠ .construct initData customData) :
    ((Entry.asked request).mark? ≠ some .constructed ∧ (Entry.asked request).mark? ≠ some (.keyed none)) ∧
      ∀ reply, (Entry.replied request reply).mark? ≠ some .constructed ∧
        (Entry.replied request reply).mark? ≠ some (.keyed none) := by
  cases request with
  | construct initData customData => exact absurd rfl (hrequest initData customData)
  | _ => simp [Entry.mark?]

theorem History.marks_cons (entry : Entry) (history : History) :
    History.marks (entry :: history) = entry.mark?.toList ++ history.marks := by
  rw [marks, List.filterMap_cons]
  cases entry.mark? <;> rfl

section

variable {holding : Holding} {entry : Entry}

theorem Judged.of_cons {result : Except Fault Unit} (hjudged : Judged (entry :: history) result) :
    (∀ keyId, entry.mark? ≠ some (.keyed keyId)) ∧
      (Judged history result ∨ ∃ license timeout began asked number,
        entry = .ended ⟨.call (.process license timeout), began, asked, result⟩ ∧ Unclosed history number) := by
  obtain ⟨later, license, timeout, began, asked, earlier, number, hhistory, hunclosed, hkeyed⟩ := hjudged
  cases later with
  | nil =>
    obtain ⟨rfl, rfl⟩ := List.cons.inj hhistory
    exact ⟨nofun, .inr ⟨license, timeout, began, asked, number, rfl, hunclosed⟩⟩
  | cons first later =>
    obtain ⟨rfl, rfl⟩ := List.cons.inj hhistory
    refine ⟨?_, .inl ⟨later, license, timeout, began, asked, earlier, number, rfl, hunclosed, ?_⟩⟩
    · intro keyId hmark
      exact hkeyed keyId (by simp [History.marks_cons, hmark])
    · intro keyId hmem
      exact hkeyed keyId (by simp [History.marks_cons, hmem])

namespace Numbered

theorem closed (hnumbered : Numbered holding history) : Numbered { holding with opened := none } history :=
  ⟨hnumbered.count_constructed, fun _ _ _ _ => nofun⟩

/-- An entry that shows neither a construction nor a forgotten key. -/
theorem cons (hnumbered : Numbered holding history) (hconstructed : entry.mark? ≠ some .constructed)
    (hforgotten : entry.mark? ≠ some (.keyed none)) : Numbered holding (entry :: history) := by
  obtain ⟨hcount, hopened⟩ := hnumbered
  cases hmark : entry.mark? with
  | none => refine ⟨?_, ?_⟩ <;> rwa [History.marks_cons, hmark]
  | some mark =>
    have hmarks : History.marks (entry :: history) = mark :: history.marks := by rw [History.marks_cons, hmark]; rfl
    refine ⟨?_, ?_⟩
    · rwa [hmarks, List.count_cons_of_ne fun hmark' => hconstructed (hmark.trans (congrArg some hmark'))]
    · intro later earlier number hsplit
      rw [hmarks] at hsplit
      cases later with
      | nil => exact absurd (hmark.trans (congrArg some (List.cons.inj hsplit).1)) hforgotten
      | cons first later => exact hopened later earlier number (List.cons.inj hsplit).2

/-- The key is forgotten only when no native session is open. -/
theorem forgotten (hnumbered : Numbered holding history) (hmark : entry.mark? = some (.keyed none))
    (hopened : holding.opened = none) : Numbered holding (entry :: history) := by
  refine ⟨?_, ?_⟩
  · rw [History.marks_cons, hmark]
    simpa using hnumbered.count_constructed
  · intro _ _ number _ hsome
    cases hopened.symm.trans hsome

/-- A native session that was constructed gets the next number; it may stay the open one. -/
theorem construction {opened : Option Nat} (hnumbered : Numbered holding history)
    (hmark : entry.mark? = some .constructed)
    (hopened : opened = holding.opened ∨ opened = some (holding.constructed + 1)) :
    Numbered { holding with constructed := holding.constructed + 1, opened } (entry :: history) := by
  obtain ⟨hcount, hsince⟩ := hnumbered
  have hmarks : History.marks (entry :: history) = .constructed :: history.marks := by
    rw [History.marks_cons, hmark]
    rfl
  refine ⟨?_, ?_⟩
  · rw [hmarks, List.count_cons_self]
    exact Nat.succ_le_succ hcount
  · intro later earlier number hsplit hnumber
    rw [hmarks] at hsplit
    cases later with
    | nil => cases (List.cons.inj hsplit).1
    | cons first later =>
      have hrest : history.marks = later ++ .keyed none :: earlier := (List.cons.inj hsplit).2
      rcases hopened with rfl | rfl
      · exact hsince later earlier number hrest hnumber
      · cases hnumber
        have hle : earlier.count .constructed ≤ history.marks.count .constructed := by
          rw [hrest, List.count_append, List.count_cons_of_ne (by simp)]
          exact Nat.le_add_left _ _
        exact Nat.lt_succ_of_le (Nat.le_trans hle hcount)

end Numbered

namespace Upheld

theorem initial (setting : Setting) : Upheld (Session.ofSetting setting).holding [] := by
  refine ⟨⟨Nat.le_refl 0, by simp [History.marks]⟩, ?_⟩
  rintro - result ⟨later, _, _, _, _, _, _, hhistory, -⟩
  simp at hhistory

theorem withLock (hupheld : Upheld holding history) (isLocked : Bool) : Upheld { holding with isLocked } history :=
  ⟨⟨hupheld.count_constructed, hupheld.opened_since⟩, hupheld.settles⟩

theorem closed (hupheld : Upheld holding history) : Upheld { holding with opened := none } history :=
  ⟨hupheld.toNumbered.closed, hupheld.settles⟩

/-- An entry that shows neither a construction nor a key, and no license that was processed. -/
theorem cons (hupheld : Upheld holding history) (hconstructed : entry.mark? ≠ some .constructed)
    (hforgotten : entry.mark? ≠ some (.keyed none))
    (hprocess : ∀ license timeout began asked result,
      entry ≠ .ended ⟨.call (.process license timeout), began, asked, result⟩) : Upheld holding (entry :: history) := by
  refine ⟨hupheld.toNumbered.cons hconstructed hforgotten, fun hhandle result hjudged => ?_⟩
  obtain ⟨-, hjudged | ⟨license, timeout, began, asked, -, hended, -⟩⟩ := hjudged.of_cons
  · exact hupheld.settles hhandle result hjudged
  · exact absurd hended (hprocess license timeout began asked result)

theorem of_asked {request : Request} (hupheld : Upheld holding history)
    (hrequest : ∀ initData customData, request ≠ .construct initData customData) :
    Upheld holding (.asked request :: history) := by
  obtain ⟨⟨hmade, hforgotten⟩, -⟩ := mark?_request hrequest
  exact hupheld.cons hmade hforgotten fun _ _ _ _ _ => nofun

theorem of_replied {request : Request} (hupheld : Upheld holding history)
    (hrequest : ∀ initData customData, request ≠ .construct initData customData) (reply : Reply request) :
    Upheld holding (.replied request reply :: history) := by
  obtain ⟨hmade, hforgotten⟩ := (mark?_request hrequest).2 reply
  exact hupheld.cons hmade hforgotten fun _ _ _ _ _ => nofun

/-- Whatever the key is, no exchange has settled it when it has just changed. -/
theorem keyed {keyId : Option Bytes} (hnumbered : Numbered holding (entry :: history))
    (hmark : entry.mark? = some (.keyed keyId)) : Upheld holding (entry :: history) :=
  ⟨hnumbered, fun _ _ hjudged => absurd hmark (hjudged.of_cons.1 keyId)⟩

theorem construction {opened : Option Nat} (hupheld : Upheld holding history)
    (hmark : entry.mark? = some .constructed)
    (hopened : opened = holding.opened ∨ opened = some (holding.constructed + 1)) :
    Upheld { holding with constructed := holding.constructed + 1, opened } (entry :: history) := by
  refine ⟨hupheld.toNumbered.construction hmark hopened, fun hhandle result hjudged => ?_⟩
  obtain ⟨-, hjudged | ⟨license, timeout, began, asked, -, rfl, -⟩⟩ := hjudged.of_cons
  · exact hupheld.settles hhandle result hjudged
  · cases hmark

theorem processed {license : Option LicenseData} {timeout : Duration} {began : Session} {result : Except Fault Unit}
    (hupheld : Upheld holding history)
    (hsettles : ∀ number, Unclosed history number → Settles holding.key result) :
    Upheld holding (.ended ⟨.call (.process license timeout), began, asked, result⟩ :: history) := by
  refine ⟨hupheld.toNumbered.cons nofun nofun, fun hhandle other hjudged => ?_⟩
  obtain ⟨-, hjudged | ⟨_, _, _, _, number, hended, hunclosed⟩⟩ := hjudged.of_cons
  · exact hupheld.settles hhandle other hjudged
  · cases hended
    exact hsettles number hunclosed

end Upheld

end

/-! ### The outline -/

variable {pinned : Nat} {session : Session} {asked : List Asked}

/-- The outline on top of custody. Under the lock, the open native session stays. -/
def upheld : Outline where
  Holds _ session history := Upheld session.holding history
  Rely _ before after :=
    after.isLocked = before.isLocked ∧ (before.isLocked = true → after.opened = before.opened)
  Report _ _ _ := True
  rely_refl _ _ := ⟨rfl, fun _ => rfl⟩
  rely_trans hfirst hthen :=
    ⟨hthen.1.trans hfirst.1, fun hlocked => (hthen.2 (hfirst.1.trans hlocked)).trans (hfirst.2 hlocked)⟩

/-- What neither makes a native session nor touches the key. -/
theorem overlooks_upheld {parts : List Part} {may : Request → Prop}
    (hparts : ∀ part ∈ [Part.opened, .constructed, .handles, .key], part ∉ parts)
    (hmay : ∀ initData customData, ¬may (.construct initData customData)) :
    Overlooks upheld pinned parts may fun before after => .lock ∉ parts → upheld.Rely pinned before after := by
  obtain ⟨hopened, hconstructed, hhandles, hkey⟩ :
      .opened ∉ parts ∧ .constructed ∉ parts ∧ .handles ∉ parts ∧ .key ∉ parts := by simpa using hparts
  have hnot : ∀ {request}, isPlain request = true ∨ may request →
      ∀ initData customData, request ≠ .construct initData customData := by
    rintro _ hrequest initData customData rfl
    exact hmay initData customData (hrequest.resolve_left nofun)
  refine ⟨?_, ?_, ?_, ?_, fun hrely _ => hrely, ?_⟩
  · intro before after history hsame hholds
    have hholding : after.holding = { before.holding with isLocked := after.isLocked } := by
      rw [Session.holding, show after.opened = _ from hsame.same _ hopened,
        show after.constructed = _ from hsame.same _ hconstructed, show after.handles = _ from hsame.same _ hhandles,
        show after.key = _ from hsame.same _ hkey]
      rfl
    show Upheld after.holding history
    rw [hholding]
    exact Upheld.withLock hholds after.isLocked
  · intro session request history hrequest hholds
    exact Upheld.of_asked hholds (hnot hrequest)
  · intro session request history reply hrequest hholds
    exact Upheld.of_replied hholds (hnot hrequest) reply
  · intro before after hsame hlock
    exact ⟨hsame.same _ hlock, fun _ => hsame.same _ hopened⟩
  · intro before between after hfirst hthen hlock
    exact upheld.rely_trans (hfirst hlock) (hthen hlock)

/-! ### Operations that touch the key or the native session -/

theorem upholds_awaitUnlocked {post : Session → List Asked → History → Unit → Prop}
    (hupheld : Upheld session.holding history)
    (hnext : session.isLocked = false → post session asked history ()) :
    upheld.Achieves pinned (awaitUnlocked session) asked history post := by
  refine achieves_ite.mpr ⟨fun _ => ?_, fun hunlocked => hnext (by simpa using hunlocked)⟩
  refine achieves_ask.mpr ⟨hupheld.of_asked fun _ _ => nofun, ?_⟩
  intro _ _ _ hback
  exact absurd rfl hback.1

theorem upholds_lock {post : Session → List Asked → History → Unit → Prop} (hupheld : Upheld session.holding history)
    (hnext : ∀ locked : Session, Upheld locked.holding history → locked.isLocked = true →
      post locked asked history ()) :
    upheld.Achieves pinned (lock session) asked history post := by
  refine achieves_bind.mpr (upholds_awaitUnlocked hupheld fun _ => achieves_modify.mpr ?_)
  exact hnext _ (hupheld.withLock true) rfl

theorem upholds_closeOpened {post : Session → List Asked → History → Unit → Prop}
    (hupheld : Upheld session.holding history)
    (hnext : ∀ (session' : Session) asked' (history' : History), Upheld session'.holding history' →
      (session.isLocked = true → session'.opened = none) → post session' asked' history' ()) :
    upheld.Achieves pinned (closeOpened session) asked history post := by
  refine achieves_bind.mpr (achieves_get.mpr ?_)
  cases hopened : session.opened with
  | none => exact hnext session asked history hupheld fun _ => hopened
  | some number =>
    refine achieves_bind.mpr (achieves_modify.mpr (achieves_ask.mpr ⟨?_, ?_⟩))
    · exact hupheld.closed.of_asked fun _ _ => nofun
    · intro session' history' reply hback
      exact hnext _ _ _ (Upheld.of_replied hback.holds (by simp) reply) (hback.rely rfl).2

/-- When the last handle is given up, no key counts any more. -/
theorem upholds_release {post : Session → List Asked → History → Unit → Prop}
    (hnumbered : Numbered session.holding history)
    (hshared : session.handles - 1 ≠ 0 → post { session with handles := session.handles - 1 } asked history ())
    (hlast : ∀ (session' : Session) asked' (history' : History), Upheld session'.holding history' →
      post session' asked' history' ()) :
    upheld.Achieves pinned (release session) asked history post := by
  refine achieves_bind.mpr (achieves_get.mpr (achieves_bind.mpr (achieves_modify.mpr (achieves_ite.mpr ⟨?_, hshared⟩))))
  intro hgone
  have hupheld : Upheld { session with handles := session.handles - 1 : Session }.holding history :=
    ⟨⟨hnumbered.count_constructed, hnumbered.opened_since⟩, fun hhandle => absurd hgone (Nat.ne_of_gt hhandle)⟩
  exact upholds_closeOpened hupheld fun _ _ _ hupheld' _ => hlast _ _ _ hupheld'

/-- The key is forgotten under the lock with no native session open, and the one that is constructed gets a new number. -/
theorem upholds_construct {initData : Bytes} {customData : Option Bytes}
    {post : Session → List Asked → History → Unit → Prop} (hnumbered : Numbered session.holding history)
    (hopened : session.opened = none)
    (hnext : ∀ (session' : Session) asked' (history' : History), Upheld session'.holding history' →
      post session' asked' history' ()) :
    upheld.Achieves pinned (construct initData customData session) asked history post := by
  refine achieves_bind.mpr (achieves_ask.mpr ⟨.keyed (hnumbered.forgotten rfl hopened) rfl, ?_⟩)
  intro session' history' reply hback
  have hupheld : Upheld session'.holding history' := hback.holds
  cases reply with
  | error status => exact achieves_modify.mpr (hnext _ _ _ (hupheld.cons nofun nofun fun _ _ _ _ _ => nofun))
  | ok id =>
    refine achieves_bind.mpr (achieves_modifyGet.mpr (achieves_ite.mpr ⟨?_, ?_⟩))
    · intro _
      have hmade : Upheld { session'.holding with constructed := session'.constructed + 1 }
          (.replied (.construct initData customData) (Except.ok id) :: history') :=
        hupheld.construction rfl (.inl rfl)
      refine achieves_bind.mpr (achieves_ask.mpr ⟨hmade.of_asked fun _ _ => nofun, ?_⟩)
      intro session'' history'' reply hback'
      exact achieves_modify.mpr (hnext _ _ _ (Upheld.of_replied hback'.holds (by simp) reply))
    · intro _
      exact achieves_modify.mpr (hnext _ _ _ (hupheld.construction rfl (.inr rfl)))

theorem upholds_generate {initData : Bytes} {customData : Option Bytes}
    {post : Session → List Asked → History → Unit → Prop} (hupheld : Upheld session.holding history)
    (hnext : ∀ (session' : Session) asked' (history' : History), Upheld session'.holding history' →
      post session' asked' history' ()) :
    upheld.Achieves pinned (generate initData customData session) asked history post := by
  refine achieves_bind.mpr (upholds_lock hupheld fun locked hlocked hlock => achieves_bind.mpr ?_)
  have hoverlooks : Overlooks upheld pinned [.system] (fun _ => False)
      fun before after => .lock ∉ [Part.system] → upheld.Rely pinned before after :=
    overlooks_upheld (by simp) fun _ _ => id
  refine (confined_ensureSystem (by simp)).achieves hoverlooks hlocked ?_
  intro ensured asked' history' created hensured hrely _
  have hlock' : ensured.isLocked = true := (hrely (by simp)).1.trans hlock
  refine achieves_ite.mpr ⟨?_, ?_⟩
  · intro _
    refine achieves_bind.mpr (upholds_closeOpened hensured fun closed _ history'' hclosed hopened => ?_)
    refine achieves_bind.mpr (achieves_modify.mpr (achieves_bind.mpr ?_))
    refine upholds_construct ⟨hclosed.count_constructed, hclosed.opened_since⟩ (hopened hlock') fun made _ _ hmade => ?_
    exact achieves_modify.mpr (hnext _ _ _ (hmade.withLock false))
  · intro _
    exact achieves_bind.mpr (achieves_modify.mpr (achieves_modify.mpr (hnext _ _ _ (hensured.withLock false))))

/-- The status is found out by a query if there is a key and a native session to ask about it, and else left as it is. -/
theorem upholds_resolveKeyStatus {post : Session → List Asked → History → Option KeyStatus → Prop}
    (hupheld : Upheld session.holding history)
    (hnext : ∀ (session' : Session) asked' (history' : History), Upheld session'.holding history' →
      (session'.key.status = none → session'.opened = none ∨ session'.key.keyId = []) →
      post session' asked' history' session'.key.status) :
    upheld.Achieves pinned (resolveKeyStatus session) asked history post := by
  refine achieves_bind.mpr (achieves_bind.mpr (upholds_awaitUnlocked hupheld fun _ => achieves_bind.mpr
    (achieves_get.mpr (achieves_pure.mpr (achieves_bind.mpr (achieves_get.mpr ?_))))))
  have hleft := hnext session asked history hupheld
  cases hstatus : session.key.status with
  | some status =>
    rw [hstatus] at hleft
    exact hleft nofun
  | none =>
    rw [hstatus] at hleft
    cases hopened : session.opened with
    | none => exact hleft fun _ => .inl hopened
    | some number =>
      refine achieves_ite.mpr ⟨fun hempty => hleft fun _ => .inr (List.isEmpty_iff.mp hempty), fun hkeyId => ?_⟩
      have hasked : Upheld session.holding (.asked (.queryStatus number session.key.keyId) :: history) :=
        hupheld.of_asked fun _ _ => nofun
      refine achieves_bind.mpr (achieves_ask.mpr ⟨hasked, ?_⟩)
      intro session' history' status hback
      obtain ⟨rfl, rfl⟩ := hback.quiet rfl
      have hanswered := hasked.of_replied (by simp) status
      refine achieves_bind.mpr (achieves_modify.mpr (hnext _ _ _ ⟨⟨hanswered.count_constructed, hanswered.opened_since⟩,
        ?_⟩ nofun))
      -- a key that an exchange has settled is not asked about again
      intro hhandle result hjudged
      have hsettles : Settles session'.key result := hanswered.settles hhandle result hjudged
      exact absurd (hsettles.keyId_eq hstatus) (by simpa using hkeyId)

theorem upholds_settle {timeout : Duration} {post : Session → List Asked → History → Except Fault Unit → Prop}
    (hupheld : Upheld session.holding history)
    (hnext : ∀ (session' : Session) asked' (history' : History), Upheld session'.holding history' →
      (session'.key.status = none → session'.opened = none ∨ session'.key.keyId = []) →
      post session' asked' history' (outcome session'.key.status)) :
    upheld.Achieves pinned (settle timeout session) asked history post := by
  have hoverlooks : Overlooks upheld pinned [.latch .keyStatusReady] (fun _ => False)
      fun before after => .lock ∉ [Part.latch .keyStatusReady] → upheld.Rely pinned before after :=
    overlooks_upheld (by simp) fun _ _ => id
  refine achieves_bind.mpr ((confined_await _ timeout (by simp)).achieves hoverlooks hupheld ?_)
  intro awaited _ _ _ hawaited _ _
  refine achieves_bind.mpr (upholds_resolveKeyStatus hawaited fun resolved _ _ hresolved hknown => ?_)
  refine achieves_bind.mpr (achieves_modify.mpr (achieves_ite.mpr ⟨fun _ => ?_, fun _ => ?_⟩))
  · refine achieves_bind.mpr (achieves_get.mpr (achieves_bind.mpr (achieves_ask.mpr ?_)))
    refine ⟨hresolved.of_asked fun _ _ => nofun, ?_⟩
    intro session' history' reply hback
    obtain ⟨rfl, rfl⟩ := hback.quiet rfl
    exact achieves_bind.mpr (achieves_modify.mpr (hnext _ _ _ (Upheld.of_replied hback.holds (by simp) reply) hknown))
  · exact achieves_bind.mpr (achieves_modify.mpr (hnext _ _ _ hresolved hknown))

theorem upholds_process {license : Option LicenseData} {timeout : Duration}
    {post : Session → List Asked → History → Except Fault Unit → Prop} (hupheld : Upheld session.holding history)
    (hnext : ∀ (session' : Session) asked' (history' : History), Upheld session'.holding history' →
      (session'.key.status = none → session'.opened = none ∨ session'.key.keyId = []) →
      post session' asked' history' (outcome session'.key.status)) :
    upheld.Achieves pinned (process license timeout session) asked history post := by
  cases license with
  | none => exact upholds_settle hupheld hnext
  | some license =>
    rw [process_some]
    have hoverlooks : Overlooks upheld pinned [] (fun request => ∃ number, request = .update number license.bytes)
        fun before after => .lock ∉ ([] : List Part) → upheld.Rely pinned before after :=
      overlooks_upheld (by simp) (by simp)
    refine achieves_bind.mpr ((confined_feedLicense license).achieves hoverlooks hupheld ?_)
    intro fed _ _ _ hfed _ _
    exact upholds_settle hfed hnext

theorem upholds_clear {entry : Session} {post : Session → List Asked → History → Unit → Prop}
    (hupheld : Upheld session.holding history)
    (hnext : ∀ (session' : Session) asked' (history' : History),
      Upheld session'.holding (.ended ⟨.call .clear, entry, asked', ()⟩ :: history') →
        post session' asked' history' ()) :
    upheld.Achieves pinned (clear session) asked history post := by
  refine achieves_bind.mpr (upholds_lock hupheld fun locked hlocked hlock => achieves_bind.mpr ?_)
  refine upholds_closeOpened hlocked fun closed asked' history' hclosed hopened => ?_
  refine achieves_bind.mpr (achieves_modify.mpr (achieves_modify.mpr (hnext _ _ _ ?_)))
  have hnumbered : Numbered closed.holding (.ended ⟨.call .clear, entry, asked', ()⟩ :: history') :=
    hclosed.toNumbered.forgotten rfl (hopened hlock)
  exact .keyed ⟨hnumbered.count_constructed, hnumbered.opened_since⟩ rfl

theorem Upheld.of_event {holding : Holding} {event : Event} {entry : Session} {asked : List Asked}
    (hupheld : Upheld holding history) : Upheld holding (.ended ⟨.event event, entry, asked, ()⟩ :: history) := by
  cases event with
  | keyUpdate keyId => exact .keyed (hupheld.toNumbered.cons nofun nofun) rfl
  | challenge | error | keysUpdated => exact hupheld.cons nofun nofun fun _ _ _ _ _ => nofun

/-- A key update shows only at its end, with the key in place already. -/
theorem upholds_onKeyUpdate {keyId : Bytes} {entry : Session} {post : Session → List Asked → History → Unit → Prop}
    (hupheld : Upheld session.holding history)
    (hnext : ∀ (session' : Session) asked' (history' : History), Numbered session'.holding history' →
      Upheld session'.holding (.ended ⟨.event (.keyUpdate keyId), entry, asked', ()⟩ :: history') →
      post session' asked' history' ()) :
    upheld.Achieves pinned (onKeyUpdate keyId session) asked history post := by
  have hended : ∀ (session' : Session) asked' (history' : History), Numbered session'.holding history' →
      post session' asked' history' () :=
    fun _ _ _ hnumbered => hnext _ _ _ hnumbered (.keyed (hnumbered.cons nofun nofun) rfl)
  refine achieves_bind.mpr (achieves_get.mpr ?_)
  cases if session.isLocked then none else session.opened with
  | none => exact achieves_modify.mpr (hended _ _ _ ⟨hupheld.count_constructed, hupheld.opened_since⟩)
  | some number =>
    refine achieves_bind.mpr (achieves_ask.mpr ⟨hupheld.of_asked fun _ _ => nofun, ?_⟩)
    intro session' history' status hback
    have hanswered : Upheld session'.holding _ := Upheld.of_replied hback.holds (by simp) status
    exact achieves_modify.mpr (hended _ _ _ ⟨hanswered.count_constructed, hanswered.opened_since⟩)

theorem upholds_handle {event : Event} (entry : Session) {post : Session → List Asked → History → Unit → Prop}
    (hupheld : Upheld session.holding history)
    (hnext : ∀ (session' : Session) asked' (history' : History), Numbered session'.holding history' →
      Upheld session'.holding (.ended ⟨.event event, entry, asked', ()⟩ :: history') →
      post session' asked' history' ()) :
    upheld.Achieves pinned (handle event session) asked history post := by
  by_cases hkey : ∃ keyId, event = .keyUpdate keyId
  · obtain ⟨keyId, rfl⟩ := hkey
    exact upholds_onKeyUpdate hupheld hnext
  · have hparts : ∀ part ∈ [Part.opened, .constructed, .handles, .key], part ∉ event.changes := by
      cases event <;> simp_all [Event.changes]
    have hoverlooks : Overlooks upheld pinned event.changes (fun _ => False) _ := overlooks_upheld hparts fun _ _ => id
    refine (confined_handle event).achieves hoverlooks hupheld ?_
    intro session' asked' history' _ hupheld' _ _
    exact hnext _ _ _ hupheld'.toNumbered hupheld'.of_event

theorem upholds_deliver {event : Event} {entry : Session} {post : Session → List Asked → History → Unit → Prop}
    (hupheld : Upheld session.holding history)
    (hnext : ∀ (session' : Session) asked' (history' : History),
      Upheld session'.holding (.ended ⟨.event event, entry, asked', ()⟩ :: history') →
      post session' asked' history' ()) :
    upheld.Achieves pinned (deliver event session) asked history post := by
  refine achieves_bind.mpr (achieves_get.mpr (achieves_ite.mpr ?_))
  refine ⟨fun _ => hnext _ _ _ hupheld.of_event, fun hsome => ?_⟩
  have hretained : Upheld { session with handles := session.handles + 1 : Session }.holding history :=
    ⟨⟨hupheld.count_constructed, hupheld.opened_since⟩, fun _ => hupheld.settles (Nat.pos_of_ne_zero hsome)⟩
  refine achieves_bind.mpr (achieves_modify.mpr (achieves_bind.mpr (upholds_handle entry hretained ?_)))
  intro handled asked' history' hnumbered hended
  refine upholds_release hnumbered (fun hshared => hnext _ _ _ ?_) fun _ _ _ hupheld' => hnext _ _ _ hupheld'.of_event
  exact ⟨⟨hended.count_constructed, hended.opened_since⟩, fun _ => hended.settles (by show 0 < handled.handles; omega)⟩

/-! ### Every activity -/

theorem owes_of_upheld {activity : Activity} {entry : Session} {result : activity.Result}
    (hupheld : Upheld session.holding (.ended ⟨activity, entry, asked, result⟩ :: history))
    (howed : custody.Owes activity entry pinned session asked history result) :
    upheld.Owes activity entry pinned session asked history result :=
  ⟨hupheld, ⟨howed.2.1.isLocked_eq, howed.2.1.opened_eq⟩, trivial⟩

/-- A call that neither makes or closes a native session nor touches handles or the key. -/
theorem upholds_call (made : Call) {pinned' : Nat}
    (hparts : ∀ part ∈ [Part.opened, .constructed, .handles, .key], part ∉ made.changes)
    (hmay : ∀ request, ¬made.mayAsk request) (hupheld : Upheld session.holding history) :
    upheld.Achieves pinned' (made.program session) asked history fun session' asked' history' result =>
      custody.Owes (.call made) session pinned session' asked' history' result →
        upheld.Owes (.call made) session pinned session' asked' history' result := by
  refine (confined_call made).achieves (overlooks_upheld hparts fun _ _ => hmay _) hupheld ?_
  intro session' asked' history' result hupheld' _ _
  refine owes_of_upheld (hupheld'.cons ?_ ?_ ?_)
  · cases made <;> simp [Entry.mark?]
  · intro hforgotten
    cases made with
    | clear => simp [Call.changes] at hparts
    | _ => cases hforgotten
  · rintro license timeout began asked _ hended
    cases hended
    simp [Call.changes] at hparts

theorem upheld_met : (custody.and upheld).Met := by
  refine custody_met.and ?_
  intro activity pinned session history (hbefore : Upheld session.holding history) hhandle
  have hupheld : Upheld session.holding (.began activity :: history) := hbefore.cons nofun nofun fun _ _ _ _ _ => nofun
  cases activity with
  | event event => exact upholds_deliver hupheld fun _ _ _ hended => owes_of_upheld hended
  | call made =>
    cases made with
    | generate initData customData =>
      refine upholds_generate hupheld fun _ _ _ hupheld' => owes_of_upheld ?_
      exact hupheld'.cons nofun nofun fun _ _ _ _ _ => nofun
    | clear => exact upholds_clear hupheld fun _ _ _ hended => owes_of_upheld hended
    | process license timeout =>
      refine upholds_process hupheld fun session' asked' history' hupheld' hknown howed => ?_
      -- custody tells that what is not closed is open
      have hledger : Ledger session'.opened session'.constructed history'.marks := howed.1.ledger
      refine owes_of_upheld (hupheld'.processed fun number hunclosed => ⟨rfl, fun hstatus => ?_⟩) howed
      refine (hknown hstatus).resolve_left ?_
      rw [hledger.opened_of_not_closed hunclosed.1 hunclosed.2.1 hunclosed.2.2]
      exact nofun
    | retain =>
      have hretained : Upheld { session with handles := session.handles + 1 : Session }.holding _ :=
        ⟨⟨hupheld.count_constructed, hupheld.opened_since⟩, fun _ => hupheld.settles (of_decide_eq_true hhandle)⟩
      exact owes_of_upheld (hretained.cons nofun nofun fun _ _ _ _ _ => nofun)
    | release =>
      refine upholds_release hupheld.toNumbered (fun _ => ?_) fun _ _ _ hupheld' => ?_
      · refine owes_of_upheld (Upheld.cons ?_ nofun nofun fun _ _ _ _ _ => nofun)
        exact ⟨⟨hupheld.count_constructed, hupheld.opened_since⟩, fun hleft => hupheld.settles (by
          have : 0 < session.handles - 1 := hleft
          show 0 < session.handles
          omega)⟩
      · exact owes_of_upheld (hupheld'.cons nofun nofun fun _ _ _ _ _ => nofun)
    | keyRequest timeout => exact upholds_call (.keyRequest timeout) (by simp [Call.changes]) (fun _ => id) hupheld
    | decrypt encryption payload =>
      exact upholds_call (.decrypt encryption payload) (by simp [Call.changes]) (fun _ => id) hupheld
    | waitForState state timeout =>
      exact upholds_call (.waitForState state timeout) (by simp [Call.changes]) (fun _ => id) hupheld
    | setMemory memory => exact upholds_call (.setMemory memory) (by simp [Call.changes]) (fun _ => id) hupheld
    | setOutputProtection enabled =>
      exact upholds_call (.setOutputProtection enabled) (by simp [Call.changes]) (fun _ => id) hupheld
    | setSecurityManager handle =>
      exact upholds_call (.setSecurityManager handle) (by simp [Call.changes]) (fun _ => id) hupheld
    | changeOutputLink link =>
      exact upholds_call (.changeOutputLink link) (by simp [Call.changes]) (fun _ => id) hupheld

theorem Reachable.upheld (hreach : Reachable setting moment) : Upheld moment.session.holding moment.history :=
  (upheld_met.fits ⟨Custody.initial setting, Upheld.initial setting⟩ hreach).holds.2

/-! ### Renewals -/

/-- A license that is processed with the same native session as an earlier one comes to the same, unless a key update was delivered in between; it makes no difference what the module said to the license. -/
theorem renewal_repeats_result {license license' : Option LicenseData} {timeout timeout' : Duration}
    {entry entry' : Session} {asked asked' : List Asked} {result result' : Except Fault Unit}
    {between earlier : History} {number : Nat} (hreach : Reachable setting moment)
    (hended : moment.history = .ended ⟨.call (.process license' timeout'), entry', asked', result'⟩ ::
      (between ++ .ended ⟨.call (.process license timeout), entry, asked, result⟩ :: earlier))
    (hearlier : Unclosed earlier number) (hnow : Unclosed moment.history number)
    (hunreported : ∀ keyId, .keyed (some keyId) ∉ History.marks between) : result' = result := by
  have hledger : Ledger moment.session.opened moment.session.constructed moment.history.marks := hreach.custody.ledger
  obtain ⟨hpos, hle, hopen⟩ := hearlier
  have hopened : moment.session.opened = some number := hledger.opened_of_not_closed hnow.1 hnow.2.1 hnow.2.2
  have hmarks : moment.history.marks = History.marks between ++ History.marks earlier := by
    rw [hended, History.marks_cons, History.marks_append, History.marks_cons]
    rfl
  have hunkeyed : ∀ keyId, .keyed keyId ∉ History.marks between := by
    rintro (_ | keyId) hmem
    -- a native session that was open when the key was forgotten is not open any more
    · obtain ⟨later, before, hbetween⟩ := List.append_of_mem hmem
      have hsince := hreach.upheld.opened_since later (before ++ History.marks earlier) number (by
        rw [hmarks, hbetween, List.append_assoc, List.cons_append]) hopened
      rw [List.count_append] at hsince
      omega
    · exact hunreported keyId hmem
  have hhandle : 0 < moment.session.handles := by
    refine Nat.pos_of_ne_zero fun hgone => ?_
    cases (hreach.custody.gone hgone).symm.trans hopened
  have hfirst : Judged moment.history result :=
    ⟨.ended ⟨.call (.process license' timeout'), entry', asked', result'⟩ :: between, license, timeout, entry, asked,
      earlier, number, hended, ⟨hpos, hle, hopen⟩, hunkeyed⟩
  have hthen : Judged moment.history result' := by
    rw [hended] at hnow
    exact ⟨[], license', timeout', entry', asked', _, number, hended, hnow, by simp [History.marks]⟩
  exact (hreach.upheld.settles hhandle _ hthen).result_eq.trans
    (hreach.upheld.settles hhandle _ hfirst).result_eq.symm

/-- A license that makes the key usable, and another one for the same native session, which the module refuses and after which it reports nothing. -/
def movesOfRejectedRenewal : List Move :=
  [.begin (.call (.generate [] none)),
    .reply (.createSystem settingWithSideChannel.helper.keySystem) true,
    .reply (.construct [] none) (.ok "first"),
    .begin (.call (.process (some ⟨[1]⟩) ⟨1000000⟩)),
    .begin (.event (.keyUpdate [2])),
    .reply (.queryStatus 1 [2]) .usable,
    .begin (.event .keysUpdated),
    .reply (.update 1 [1]) (.ok ()),
    .begin (.call (.process (some ⟨[3]⟩) ⟨1000000⟩)),
    .reply (.update 1 [3]) (.error 5),
    .reply (.wait .keyStatusReady ⟨1000000⟩) ()]

/-- What happens while the refused license is processed, latest first. -/
def courseOfRejectedRenewal : History :=
  [.replied (.wait .keyStatusReady ⟨1000000⟩) (), .asked (.wait .keyStatusReady ⟨1000000⟩),
    .replied (.update 1 [3]) (Except.error 5), .asked (.update 1 [3]),
    .began (.call (.process (some ⟨[3]⟩) ⟨1000000⟩))]

private theorem renewed :
    ∃ moment entry entry' asked asked' result' earlier, Reachable settingWithSideChannel moment ∧
      Unclosed earlier 1 ∧ Unclosed moment.history 1 ∧ result' = .ok () ∧ moment.session.state = .ready ∧
      moment.history = .ended ⟨.call (.process (some ⟨[3]⟩) ⟨1000000⟩), entry', asked', result'⟩ ::
        (courseOfRejectedRenewal ++
          .ended ⟨.call (.process (some ⟨[1]⟩) ⟨1000000⟩), entry, asked, .ok ()⟩ :: earlier) :=
  ⟨_, _, _, _, _, _, _, ⟨movesOfRejectedRenewal, rfl⟩, ⟨by decide, by decide, by decide⟩,
    ⟨by decide, by decide, by decide⟩, rfl, rfl, rfl⟩

theorem renewal_repeats_result_of_rejected_license :
    ∃ moment entry asked earlier, Reachable settingWithSideChannel moment ∧
      moment.history = .ended ⟨.call (.process (some ⟨[3]⟩) ⟨1000000⟩), entry, asked, .ok ()⟩ :: earlier := by
  obtain ⟨moment, entry, entry', asked, asked', result', earlier, hreach, hearlier, hnow, -, -, hended⟩ := renewed
  have hresult : result' = .ok () :=
    renewal_repeats_result hreach hended hearlier hnow (by simp [courseOfRejectedRenewal, History.marks, Entry.mark?])
  exact ⟨moment, entry', asked', _, hreach, hresult ▸ hended⟩

/-- The module refuses a license and no event comes until the wait is over, and the exchange succeeds. -/
theorem rejected_renewal_succeeds :
    ∃ moment entry entry' asked asked' earlier, Reachable settingWithSideChannel moment ∧
      Unclosed earlier 1 ∧ Unclosed moment.history 1 ∧ moment.session.state = .ready ∧
      moment.history = .ended ⟨.call (.process (some ⟨[3]⟩) ⟨1000000⟩), entry', asked', .ok ()⟩ ::
        (courseOfRejectedRenewal ++
          .ended ⟨.call (.process (some ⟨[1]⟩) ⟨1000000⟩), entry, asked, .ok ()⟩ :: earlier) ∧
      ∀ event, .began (.event event) ∉ courseOfRejectedRenewal := by
  obtain ⟨moment, entry, entry', asked, asked', result', earlier, hreach, hearlier, hnow, hresult, hready, hended⟩ :=
    renewed
  refine ⟨moment, entry, entry', asked, asked', earlier, hreach, hearlier, hnow, hready, hresult ▸ hended, ?_⟩
  simp [courseOfRejectedRenewal]

end ContentProtection.Native
