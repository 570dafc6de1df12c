import ContentProtection.Proofs.Native.Footprint

/-!
# Output protection of native sessions

Whether output protection is enabled is as it was set last, and the output link is as the platform gave it last: no event and no other call touches them. Decrypting looks at both before anything else, and only there can it find fault with the link; a status of the module is never taken for that fault, whatever its number.
-/

namespace ContentProtection.Native

open ContentProtection.Session (Fault)
open Outline

variable {setting : Setting} {protection : Bool} {link : OutputLink} {pinned : Nat} {session : Session}
  {asked : List Asked} {history : History}

/-! ### What the history tells -/

/-- What a call sets output protection to, if it does. -/
def Call.outputProtection? : Call → Option Bool
  | setOutputProtection enabled => some enabled
  | _ => none

/-- What the output link changes to, if it does. -/
def Call.outputLink? : Call → Option OutputLink
  | changeOutputLink link => some link
  | _ => none

section

variable {α : Type} {sets? : Call → Option α} {initial : α}

/-- What was set by the end of a call. -/
def Entry.set? (sets? : Call → Option α) : Entry → Option α
  | .ended ⟨.call made, _, _, _⟩ => sets? made
  | _ => none

/-- What was set last, or what was so at first. -/
def History.lastSet (sets? : Call → Option α) (initial : α) (history : History) : α :=
  (history.findSome? (Entry.set? sets?)).getD initial

theorem History.lastSet_cons (entry : Entry) (history : History) :
    History.lastSet sets? initial (entry :: history) = (entry.set? sets?).getD (history.lastSet sets? initial) := by
  rw [lastSet, List.findSome?_cons]
  cases entry.set? sets? <;> rfl

theorem History.lastSet_of_none {entry : Entry} (hentry : entry.set? sets? = none) :
    History.lastSet sets? initial (entry :: history) = history.lastSet sets? initial := by
  rw [lastSet_cons, hentry, Option.getD_none]

end

/-- Whether output protection is enabled, when it was so or not at first. -/
abbrev History.outputProtection (initial : Bool) (history : History) : Bool :=
  history.lastSet Call.outputProtection? initial

/-- What the platform says about the output, when it said this at first. -/
abbrev History.outputLink (initial : OutputLink) (history : History) : OutputLink :=
  history.lastSet Call.outputLink? initial

theorem Call.outputProtection?_eq_none {made : Call} (hparts : .outputProtection ∉ made.changes) :
    made.outputProtection? = none := by
  cases made <;> first | rfl | simp [changes] at hparts

theorem Call.outputLink?_eq_none {made : Call} (hparts : .outputLink ∉ made.changes) : made.outputLink? = none := by
  cases made <;> first | rfl | simp [changes] at hparts

/-! ### The outline -/

/-- A session as it was made, but for output protection and the output link, which are as the history tells. -/
structure AsSet (setting : Setting) (protection : Bool) (link : OutputLink) (session : Session) (history : History) :
    Prop where
  setting_eq : session.setting = setting
  outputProtection_eq : session.outputProtection = history.outputProtection protection
  outputLink_eq : session.outputLink = history.outputLink link

theorem AsSet.cons {entry : Entry} (hset : AsSet setting protection link session history)
    (hprotection : entry.set? Call.outputProtection? = none) (hlink : entry.set? Call.outputLink? = none) :
    AsSet setting protection link session (entry :: history) :=
  ⟨hset.setting_eq, hset.outputProtection_eq.trans (History.lastSet_of_none hprotection).symm,
    hset.outputLink_eq.trans (History.lastSet_of_none hlink).symm⟩

theorem AsSet.same {parts : List Part} {session' : Session} (hset : AsSet setting protection link session history)
    (hsame : SameBut parts session session') (hprotection : .outputProtection ∉ parts) (hlink : .outputLink ∉ parts) :
    AsSet setting protection link session' history :=
  ⟨hsame.setting_eq.trans hset.setting_eq, Eq.trans (hsame.same _ hprotection) hset.outputProtection_eq,
    Eq.trans (hsame.same _ hlink) hset.outputLink_eq⟩

/-- Decrypting does not begin when the link violates what the content requires; then it leaves everything as it was. -/
structure Gated (entry : Session) (payload : Bytes) (asked : List Asked) (result : Except Fault Unit × Bytes)
    (session : Session) : Prop where
  refused_iff : result.1 = .error .hdcpCompliance ↔ entry.violatesOutput = true
  payload_eq : entry.violatesOutput = true → result.2 = payload
  asked_eq : entry.violatesOutput = true → asked = []
  session_eq : entry.violatesOutput = true → session = entry

/-- The outline: a decryption that ends was decided by the session as it was at its beginning. -/
def gate (setting : Setting) (protection : Bool) (link : OutputLink) : Outline where
  Holds _ := AsSet setting protection link
  Rely _ _ _ := True
  Report record session _ :=
    match record with
    | ⟨.call (.decrypt _ payload), entry, asked, result⟩ =>
      entry.setting = setting ∧ Gated entry payload asked result session
    | _ => True
  rely_refl _ _ := trivial
  rely_trans _ _ := trivial

/-! ### Every activity -/

theorem overlooks_gate {parts : List Part} {may : ContentProtection.Session.Request → Prop}
    (hprotection : .outputProtection ∉ parts) (hlink : .outputLink ∉ parts) :
    Overlooks (gate setting protection link) pinned parts may fun _ _ => True where
  holds_same hsame hholds := hholds.same hsame hprotection hlink
  holds_asked _ hholds := hholds.cons rfl rfl
  holds_replied _ _ hholds := hholds.cons rfl rfl
  related_same _ := trivial
  related_rely _ := trivial
  related_trans _ _ := trivial

/-- A session and its history after an activity that sets neither output protection nor the link. -/
theorem owes_of_gate {activity : Activity} {entry : Session} {result : activity.Result}
    (hholds : (gate setting protection link).Holds pinned session history)
    (hother : ∀ made, activity = .call made → made.outputProtection? = none ∧ made.outputLink? = none)
    (hreport : (gate setting protection link).Report ⟨activity, entry, asked, result⟩ session history) :
    (gate setting protection link).Owes activity entry pinned session asked history result := by
  refine ⟨?_, trivial, hreport⟩
  cases activity with
  | event event => exact hholds.cons rfl rfl
  | call made => exact hholds.cons (hother made rfl).1 (hother made rfl).2

theorem gated_decrypt (pinned' : Nat) (encryption : Sample.Encryption) (payload : Bytes)
    (hholds : (gate setting protection link).Holds pinned session
      (.began (.call (.decrypt encryption payload)) :: history)) :
    (gate setting protection link).Achieves pinned' (decrypt encryption payload session) []
      (.began (.call (.decrypt encryption payload)) :: history) fun session' asked' history' result =>
        (gate setting protection link).Holds pinned session' history' ∧
          Gated session payload asked' result session' := by
  rw [decrypt_eq]
  refine achieves_bind.mpr (achieves_get.mpr (achieves_ite.mpr ⟨fun hviolates => ?_, fun hviolates => ?_⟩))
  · exact ⟨hholds, ⟨fun _ => hviolates, fun _ => rfl⟩, fun _ => rfl, fun _ => rfl, fun _ => rfl⟩
  · refine (confined_decryptLocked encryption payload).achieves (overlooks_gate (by simp) (by simp)) hholds ?_
    intro session' asked' history' result hholds' _ hresult
    have hrefused : ∀ {goal : Prop}, session.violatesOutput = true → goal :=
      fun hviolates' => absurd hviolates' hviolates
    exact ⟨hholds', ⟨fun hlink => absurd hlink hresult, hrefused⟩, hrefused, hrefused, hrefused⟩

/-- A call that neither decrypts nor sets what decrypting looks at. -/
theorem gate_call (made : Call) (hprotection : .outputProtection ∉ made.changes) (hlink : .outputLink ∉ made.changes)
    (hreport : ∀ entry asked result session history,
      (gate setting protection link).Report ⟨.call made, entry, asked, result⟩ session history)
    (hholds : (gate setting protection link).Holds pinned session history) {pinned' : Nat} {entry : Session} :
    (gate setting protection link).Achieves pinned' ((Activity.call made).program session) asked history
      ((gate setting protection link).Owes (.call made) entry pinned) := by
  refine (confined_call made).achieves (overlooks_gate hprotection hlink) hholds fun _ _ _ _ hholds' _ _ => ?_
  refine owes_of_gate hholds' ?_ (hreport _ _ _ _ _)
  rintro _ ⟨⟩
  exact ⟨Call.outputProtection?_eq_none hprotection, Call.outputLink?_eq_none hlink⟩

theorem gate_met (setting : Setting) (protection : Bool) (link : OutputLink) : (gate setting protection link).Met := by
  intro activity pinned session history hset _
  have hbegan : (gate setting protection link).Holds pinned session (.began activity :: history) :=
    hset.cons rfl rfl
  cases activity with
  | event event =>
    have hprotection : .outputProtection ∉ .handles :: .opened :: event.changes := by
      cases event <;> simp [Event.changes]
    have hlink : .outputLink ∉ .handles :: .opened :: event.changes := by
      cases event <;> simp [Event.changes]
    have hoverlooks : Overlooks (gate setting protection link) (pinned + 1) (.handles :: .opened :: event.changes)
        (fun _ => False) fun _ _ => True := overlooks_gate hprotection hlink
    refine (confined_deliver event).achieves hoverlooks hbegan fun _ _ _ _ hholds _ _ => ?_
    exact owes_of_gate hholds (by simp) trivial
  | call made =>
    cases made with
    | setOutputProtection enabled =>
      refine ⟨⟨hset.setting_eq, ?_, ?_⟩, trivial, trivial⟩
      · rw [History.outputProtection, History.lastSet_cons]
        rfl
      · exact hbegan.outputLink_eq.trans (History.lastSet_of_none rfl).symm
    | changeOutputLink link' =>
      refine ⟨⟨hset.setting_eq, ?_, ?_⟩, trivial, trivial⟩
      · exact hbegan.outputProtection_eq.trans (History.lastSet_of_none rfl).symm
      · rw [History.outputLink, History.lastSet_cons]
        rfl
    | decrypt encryption payload =>
      refine (gated_decrypt (max 1 pinned) encryption payload hbegan).mono ?_
      rintro session' asked' history' result ⟨hholds, hgated⟩
      refine owes_of_gate hholds ?_ ⟨hset.setting_eq, hgated⟩
      rintro _ ⟨⟩
      exact ⟨rfl, rfl⟩
    | _ =>
      refine gate_call _ ?_ ?_ ?_ hbegan
      · simp [Call.changes]
      · simp [Call.changes]
      · exact fun _ _ _ _ _ => trivial

end ContentProtection.Native
