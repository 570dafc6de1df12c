import ContentProtection.Proofs.Native.Requests
import Mathlib.Data.List.Count

/-!
# Who holds the session lock

Making a native session, decrypting and clearing hold the session lock from their first request on, unless that is to wait for it. No other activity touches the lock. So it is held exactly when one of them is suspended with it, and never more than one is.
-/

namespace ContentProtection.Native

open ContentProtection.Session (Reply Request)

/-! ### Holders -/

/-- Whether an activity takes the session lock. -/
def Activity.locks : Activity → Bool
  | call (.generate _ _) | call (.decrypt _ _) | call .clear => true
  | _ => false

/-- Whether a suspended activity holds the session lock. -/
def Frame.holdsLock (frame : Frame) : Bool :=
  frame.activity.locks && frame.request != .waitForLock

/-- A step of an activity that takes the lock when it finds it free, and gives it back at its end. -/
inductive Locks : List Entry → Session → Session → Prop
  | waits {before after : Session} (activity : Activity) (hheld : before.isLocked = true)
    (hsame : after.isLocked = before.isLocked) : Locks [.asked .waitForLock, .began activity] before after
  | takes {before after : Session} (request : Request) (activity : Activity) (hlock : request ≠ .waitForLock)
    (hfree : before.isLocked = false) (hheld : after.isLocked = true) :
    Locks [.asked request, .began activity] before after
  | passes {before after : Session} (record : Record) (activity : Activity) (hsame : after.isLocked = before.isLocked) :
    Locks [.ended record, .began activity] before after
  | keeps {before after : Session} (request replied : Request) (reply : Reply replied) (course : List Entry)
    (hlock : request ≠ .waitForLock) (hsame : after.isLocked = before.isLocked) :
    Locks (.asked request :: .replied replied reply :: course) before after
  | gives {before after : Session} (record : Record) (replied : Request) (reply : Reply replied) (course : List Entry)
    (hfree : after.isLocked = false) : Locks (.ended record :: .replied replied reply :: course) before after

def locking : Conduct := fun activity course before after =>
  match activity.locks with
  | true => Locks course before after
  | false => True

/-! ### Under the lock -/

/-- What an activity that holds the lock knows: in its first step it has taken it itself, and afterwards it leaves it as it is. -/
inductive UnderLock : List Entry → Session → Session → Prop
  | taken {before after : Session} (activity : Activity) (hfree : before.isLocked = false)
    (hheld : after.isLocked = true) : UnderLock [.began activity] before after
  | kept {before after : Session} (replied : Request) (reply : Reply replied) (course : List Entry)
    (hsame : after.isLocked = before.isLocked) : UnderLock (.replied replied reply :: course) before after

variable {α : Type} {course : List Entry} {asked : List Asked} {before after session : Session}
  {post : List Entry → List Asked → Session → Session → α → Prop}

theorem UnderLock.of_same {between : Session} (hlocked : UnderLock course before between)
    (hsame : after.isLocked = between.isLocked) : UnderLock course before after := by
  cases hlocked with
  | taken activity hfree hheld => exact .taken activity hfree (hsame.trans hheld)
  | kept replied reply course hkept => exact .kept replied reply course (hsame.trans hkept)

theorem UnderLock.asks {request : Request} (hlocked : UnderLock course before after) (hlock : request ≠ .waitForLock) :
    Locks (.asked request :: course) before after := by
  cases hlocked with
  | taken activity hfree hheld => exact .takes request activity hlock hfree hheld
  | kept replied reply course hsame => exact .keeps request replied reply course hlock hsame

/-- At its end, the activity gives the lock back. -/
theorem UnderLock.ends {record : Record} (hlocked : UnderLock course before session) :
    Locks (.ended record :: course) before { session with isLocked := false } := by
  cases hlocked with
  | taken activity hfree hheld => exact .passes record activity hfree.symm
  | kept replied reply course hsame => exact .gives record replied reply course rfl

/-- Whether a request is made without waiting for the lock. -/
def isLockFree (request : Request) : Bool := request != .waitForLock

/-- An operation that neither touches the lock nor waits for it runs under it. -/
theorem underLock_proceeds {program : Operation α} {parts : List Part} {may : Request → Prop} {returns : α → Prop}
    (hconfined : Confined parts may returns program) (hparts : .lock ∉ parts) (hasks : Asks isLockFree program)
    (hlocked : UnderLock course before session)
    (hnext : ∀ course asked before after value, UnderLock course before after → post course asked before after value) :
    Proceeds Locks (program session) course asked before post := by
  refine proceeds_of_within UnderLock ((hconfined session).and (hasks session)) hlocked ?_ ?_ ?_ ?_
  · exact fun _ _ _ _ hknown hkeeps => hknown.of_same (hkeeps.1.same .lock hparts)
  · exact fun request _ _ _ hrequest hknown => hknown.asks (by simpa [isLockFree] using hrequest.2)
  · exact fun request reply course between _ _ => .kept request reply _ rfl
  · exact fun _ _ _ _ _ hknown _ => hnext _ _ _ _ _ hknown

theorem underLock_lock (activity : Activity) {post : List Entry → List Asked → Session → Session → Unit → Prop}
    (hnext : ∀ locked, UnderLock [.began activity] session locked → post [.began activity] asked session locked ()) :
    Proceeds Locks (lock session) [.began activity] asked session post := by
  refine proceeds_bind.mpr (proceeds_bind.mpr (proceeds_get.mpr (proceeds_ite.mpr ⟨fun hheld => ?_, fun hfree => ?_⟩)))
  · exact ⟨.waits activity hheld rfl, fun hlock => absurd rfl hlock⟩
  · exact hnext _ (.taken activity (by simpa using hfree) rfl)

/-! ### The calls that take the lock -/

theorem locking_generate (initData : Bytes) (customData : Option Bytes) :
    locking.KeptBy (.call (.generate initData customData)) := by
  intro session
  show Proceeds Locks (generate initData customData session) _ _ _ _
  have hsystem : Confined [.system] (fun _ => False) (fun _ => True) ensureSystem := confined_ensureSystem (by decide)
  have hclose : Confined [.opened] (fun _ => False) (fun _ => True) closeOpened := confined_closeOpened (by decide)
  refine proceeds_bind.mpr (underLock_lock _ fun locked hlocked => proceeds_bind.mpr ?_)
  refine underLock_proceeds hsystem (by decide) (asks_ensureSystem fun _ => rfl) hlocked ?_
  intro course asked before between created hlocked
  refine proceeds_ite.mpr ⟨fun _ => proceeds_bind.mpr ?_, fun _ => ?_⟩
  · refine underLock_proceeds hclose (by decide) (asks_closeOpened fun _ => rfl) hlocked ?_
    intro course asked before between _ hlocked
    refine proceeds_bind.mpr (proceeds_modify.mpr (proceeds_bind.mpr ?_))
    refine underLock_proceeds (confined_construct initData customData) (by decide) (asks_construct rfl fun _ => rfl)
      (hlocked.of_same rfl) ?_
    intro course asked before after _ hlocked
    exact hlocked.ends
  · have hfailed : UnderLock course before { between with state := .error } := hlocked.of_same rfl
    exact hfailed.ends

theorem locking_decrypt (encryption : Sample.Encryption) (payload : Bytes) :
    locking.KeptBy (.call (.decrypt encryption payload)) := by
  intro session
  show Proceeds Locks (decrypt encryption payload session) _ _ _ _
  rw [decrypt_eq]
  refine proceeds_bind.mpr (proceeds_get.mpr (proceeds_ite.mpr ⟨fun _ => .passes _ _ rfl, fun _ => ?_⟩))
  refine proceeds_bind.mpr (underLock_lock _ fun locked hlocked => proceeds_bind.mpr (proceeds_get.mpr ?_))
  cases locked.opened with
  | none => exact hlocked.ends
  | some number =>
    have hdecrypt : Confined [] (fun _ => False) NotOfLink (decryptOpened number encryption payload) :=
      confined_decryptOpened number encryption payload
    refine proceeds_bind.mpr (underLock_proceeds hdecrypt (by decide) ?_ hlocked ?_)
    · exact asks_decryptOpened (fun _ => rfl) (fun _ => rfl) (fun _ => rfl) fun _ _ => rfl
    · intro course asked before after result hlocked
      exact hlocked.ends

theorem locking_clear : locking.KeptBy (.call .clear) := by
  intro session
  show Proceeds Locks (clear session) _ _ _ _
  have hclose : Confined [.opened] (fun _ => False) (fun _ => True) closeOpened := confined_closeOpened (by decide)
  refine proceeds_bind.mpr (underLock_lock _ fun locked hlocked => proceeds_bind.mpr ?_)
  refine underLock_proceeds hclose (by decide) (asks_closeOpened fun _ => rfl) hlocked ?_
  intro course asked before after _ hlocked
  have hcleared : UnderLock course before { after with key := {}, state := .init } := hlocked.of_same rfl
  exact hcleared.ends

theorem locking_kept (activity : Activity) : locking.KeptBy activity := by
  have hothers : ∀ activity : Activity, activity.locks = false → locking.KeptBy activity := by
    intro activity hlocks session
    have hany : ∀ course before after, locking activity course before after := by
      intro course before after
      rw [locking, hlocks]
      trivial
    exact proceeds_of_forall hany fun _ _ _ _ _ => hany _ _ _
  cases activity with
  | event fired => exact hothers _ rfl
  | call made =>
    cases made with
    | generate initData customData => exact locking_generate initData customData
    | decrypt encryption payload => exact locking_decrypt encryption payload
    | clear => exact locking_clear
    | _ => exact hothers _ rfl

/-! ### Runs -/

theorem lock_not_mem_changes {activity : Activity} (hlocks : activity.locks = false) : .lock ∉ activity.changes := by
  cases activity with
  | event fired => cases fired <;> simp [Activity.changes, Event.changes]
  | call made => cases made <;> simp [Activity.changes, Call.changes, Activity.locks] at hlocks ⊢

theorem Frame.holdsLock_eq {frame : Frame} (hlock : frame.request ≠ .waitForLock) :
    frame.holdsLock = frame.activity.locks := by
  rw [holdsLock, bne_iff_ne.mpr hlock, Bool.and_true]

theorem Frame.holdsLock_eq_false {frame : Frame} (hlocks : frame.activity.locks = false) : frame.holdsLock = false := by
  rw [holdsLock, hlocks, Bool.false_and]

namespace Reachable

variable {setting : Setting} {moment : Moment} {frame : Frame} {below : List Frame}

/-- The session lock is held exactly when a suspended activity holds it, and then only one does. -/
theorem countP_holdsLock (hreach : Reachable setting moment) :
    moment.frames.countP Frame.holdsLock = if moment.session.isLocked then 1 else 0 := by
  refine induct rfl ?_ hreach
  intro moment move moment' hreach hcount hmove
  obtain ⟨activity, below, first, last, hstep, hsame, -, -, hlocking⟩ := hreach.step locking_kept hmove
  rw [hstep.lastCourse_eq, locking] at hlocking
  cases hlocks : activity.locks with
  | false =>
    rw [show moment'.session.isLocked = moment.session.isLocked from hsame.same _ (lock_not_mem_changes hlocks),
      ← hcount]
    have hfree : ∀ frame : Frame, frame.activity = activity → ¬frame.holdsLock = true :=
      fun frame hactivity => by simp [Frame.holdsLock_eq_false (hactivity ▸ hlocks)]
    have hbefore : moment.frames.countP Frame.holdsLock = below.countP Frame.holdsLock := by
      cases hstep.starts with
      | begun hframes => rw [hframes]
      | replied frame reply hactivity hframes => rw [hframes, List.countP_cons_of_neg (hfree _ hactivity)]
    cases hstep.stops with
    | ended record hactivity hframes => rw [hframes, hbefore]
    | asked frame hactivity hframes => rw [hframes, hbefore, List.countP_cons_of_neg (hfree _ hactivity)]
  | true =>
    rw [hlocks] at hlocking
    cases hstep.starts with
    | begun hbefore hbegin =>
      cases hstep.stops with
      | ended record hactivity hframes =>
        cases hlocking with
        | passes record activity hsame => rw [hframes, ← hbefore, hcount, hsame]
      | asked frame hactivity hframes =>
        rw [hframes, List.countP_cons, ← hbefore, hcount]
        generalize hrequest : frame.request = request at hlocking
        cases hlocking with
        | waits activity hheld hsame => simp [Frame.holdsLock, hrequest, hsame]
        | takes request activity hlock hfree hheld =>
          simp [Frame.holdsLock_eq (hrequest ▸ hlock), hactivity, hlocks, hfree, hheld]
    | replied resumed reply hresumed hbefore hlock =>
      rw [hbefore, List.countP_cons, Frame.holdsLock_eq hlock, hresumed, hlocks, if_pos rfl] at hcount
      cases hstep.stops with
      | ended record hactivity hframes =>
        cases hlocking with
        | gives record replied reply course hfree =>
          rw [hframes, hfree]
          split at hcount
          · simpa using hcount
          · cases hcount
      | asked frame hactivity hframes =>
        generalize hrequest : frame.request = request at hlocking
        cases hlocking with
        | keeps request replied reply course hlock hsame =>
          rw [hframes, List.countP_cons, Frame.holdsLock_eq (hrequest ▸ hlock), hactivity, hlocks, if_pos rfl, hcount,
            hsame]

theorem isLocked_of_holdsLock (hreach : Reachable setting moment) (hframe : frame ∈ moment.frames)
    (hholds : frame.holdsLock = true) : moment.session.isLocked = true := by
  by_contra hfree
  have hcount := hreach.countP_holdsLock
  rw [if_neg hfree, List.countP_eq_zero] at hcount
  exact hcount frame hframe hholds

/-- Below the activity that holds the lock, no other one does. -/
theorem holdsLock_below (hreach : Reachable setting moment) (hframes : moment.frames = frame :: below)
    (hholds : frame.holdsLock = true) : ∀ other ∈ below, other.holdsLock = false := by
  have hcount := hreach.countP_holdsLock
  rw [hreach.isLocked_of_holdsLock (hframes ▸ List.mem_cons_self) hholds, hframes, List.countP_cons_of_pos hholds,
    if_pos rfl, Nat.add_eq_right, List.countP_eq_zero] at hcount
  exact fun other hother => by simpa using hcount other hother

end Reachable

end ContentProtection.Native
