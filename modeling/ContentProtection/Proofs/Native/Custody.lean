import ContentProtection.Proofs.Native.Outline
import Mathlib.Data.List.Count

/-!
# Custody of native sessions

Which native sessions are open, closed or in use, and which key the last exchange was about, as the history of a run shows it: `History.marks` keeps no more of a history than that. A session that has made native sessions and not yet closed them has them in its custody, and `Custody` is the account that it can give at every moment: what it holds agrees with the marks. `Undisturbed` is how much of what it holds outlasts the suspension of an activity; whoever holds the session lock finds the same native session open.
-/

namespace ContentProtection.Native

open ContentProtection.Session (Signal)

/-! ### Marks -/

inductive Mark
  /-- One more native session was constructed. -/
  | constructed
  | closed (number : Nat)
  | used (number : Nat)
  /-- A key update was delivered, or the key was forgotten. -/
  | keyed (keyId : Option Bytes)
  | answered (number : Nat) (keyId : Bytes) (status : KeyStatus)
  deriving DecidableEq

/-- What an entry shows of native sessions and the key. A native session is used from the moment of a request that names it, and a construction that begins has forgotten the key before. -/
def Entry.mark? : Entry → Option Mark
  | .asked (.construct _ _) => some (.keyed none)
  | .asked (.update number _) => some (.used number)
  | .asked (.queryStatus number _) => some (.used number)
  | .asked (.decrypt number _ _) => some (.used number)
  | .asked (.close number) => some (.closed number)
  | .replied (.construct _ _) (Except.ok _) => some .constructed
  | .replied (.queryStatus number keyId) status => some (.answered number keyId status)
  | .ended ⟨.event (.keyUpdate keyId), _, _, _⟩ => some (.keyed (some keyId))
  | .ended ⟨.call .clear, _, _, _⟩ => some (.keyed none)
  | _ => none

/-- Latest first, as the history. -/
def History.marks (history : History) : List Mark := history.filterMap Entry.mark?

/-- The id of the last key update that was delivered since the key was forgotten. -/
def lastKey? : List Mark → Option Bytes
  | [] => none
  | .keyed keyId :: _ => keyId
  | _ :: earlier => lastKey? earlier

/-- The last answer to a query for a key status: who gave it, for which key, and what it was. -/
def lastAnswer? : List Mark → Option (Nat × Bytes × KeyStatus)
  | [] => none
  | .answered number keyId status :: _ => some (number, keyId, status)
  | _ :: earlier => lastAnswer? earlier

/-! ### The account -/

/-- What of a session its custody is about. -/
structure Holding where
  opened : Option Nat
  constructed : Nat
  isLocked : Bool
  handles : Nat
  key : KeyMaterial

def Session.holding (session : Session) : Holding :=
  { opened := session.opened
    constructed := session.constructed
    isLocked := session.isLocked
    handles := session.handles
    key := session.key }

@[simp] theorem Session.holding_setLatch (session : Session) (latch : Latch) (which : Signal) :
    (session.setLatch latch which).holding = session.holding := by
  cases which <;> rfl

/-- All native sessions but the open one have been closed, once, and none was used after that. -/
structure Ledger (opened : Option Nat) (constructed : Nat) (marks : List Mark) : Prop where
  count_constructed : marks.count .constructed = constructed
  count_closed : ∀ number, marks.count (.closed number) =
    if 0 < number ∧ number ≤ constructed ∧ opened ≠ some number then 1 else 0
  opened_le : ∀ number, opened = some number → 0 < number ∧ number ≤ constructed
  used_before_closed : ∀ later number earlier, marks = later ++ .used number :: earlier → .closed number ∉ earlier

/-- A status is the answer of the open native session for the last updated key. -/
def Answered (opened : Option Nat) (marks : List Mark) (status : KeyStatus) : Prop :=
  ∃ number keyId, opened = some number ∧ lastKey? marks = some keyId ∧
    lastAnswer? marks = some (number, keyId, status)

/-- The key material is that of the last updated key. Only while the native session is being replaced or cleared may a status be left that nobody stands by any more. -/
structure KeyKept (opened : Option Nat) (isLocked : Bool) (key : KeyMaterial) (marks : List Mark) : Prop where
  keyId_eq : key.keyId = (lastKey? marks).getD []
  answered : ∀ status, key.status = some status → isLocked = true ∧ opened = none ∨ Answered opened marks status

/-- The account without the key. -/
structure Guarded (pinned : Nat) (holding : Holding) (marks : List Mark) : Prop where
  ledger : Ledger holding.opened holding.constructed marks
  gone : holding.handles = 0 → holding.opened = none
  held : holding.isLocked = true → 0 < pinned ∧ 0 < holding.handles

structure Custody (pinned : Nat) (holding : Holding) (marks : List Mark) : Prop
    extends Guarded pinned holding marks where
  key : 0 < holding.handles → KeyKept holding.opened holding.isLocked holding.key marks

/-- The lock is as it was, and so are the handles that are in use; and nobody comes back from having none. -/
structure Stays (pinned : Nat) (before after : Holding) : Prop where
  isLocked_eq : after.isLocked = before.isLocked
  le_handles : min pinned before.handles ≤ after.handles
  handles_eq_zero : before.handles = 0 → after.handles = 0

/-- What a suspended activity finds as it left it. A status that was not there under the lock is not there afterwards: nobody asks for one meanwhile. -/
structure Undisturbed (pinned : Nat) (before after : Holding) : Prop extends Stays pinned before after where
  opened_eq : before.isLocked = true → after.opened = before.opened
  status_eq_none : before.isLocked = true → before.key.status = none → after.key.status = none

/-! ### Facts about the ledger -/

namespace Ledger

variable {opened : Option Nat} {constructed : Nat} {marks : List Mark}

theorem empty : Ledger none 0 [] := by
  refine ⟨rfl, ?_, ?_, ?_⟩
  · intro number
    rw [if_neg (by omega), List.count_nil]
  · intro number hopened
    cases hopened
  · intro later number earlier hmarks
    simp at hmarks

private theorem used_cons {mark : Mark} (hledger : Ledger opened constructed marks)
    (hused : ∀ number, mark = .used number → .closed number ∉ marks) :
    ∀ later number earlier, mark :: marks = later ++ .used number :: earlier → .closed number ∉ earlier := by
  intro later number earlier hmarks
  cases later with
  | nil =>
    obtain ⟨hmark, rfl⟩ := List.cons.inj hmarks
    exact hused number hmark
  | cons first later => exact hledger.used_before_closed later number earlier (List.cons.inj hmarks).2

/-- Another mark opens and closes nothing; it may be a use of a native session that is not closed. -/
private theorem cons {mark : Mark} (hledger : Ledger opened constructed marks) (hconstructed : mark ≠ .constructed)
    (hclosed : ∀ number, mark ≠ .closed number) (hused : ∀ number, mark = .used number → .closed number ∉ marks) :
    Ledger opened constructed (mark :: marks) := by
  refine ⟨?_, ?_, hledger.opened_le, hledger.used_cons hused⟩
  · rw [List.count_cons_of_ne hconstructed, hledger.count_constructed]
  · intro number
    rw [List.count_cons_of_ne (hclosed number), hledger.count_closed]

theorem keyed (keyId : Option Bytes) (hledger : Ledger opened constructed marks) :
    Ledger opened constructed (.keyed keyId :: marks) :=
  hledger.cons (by simp) (by simp) (by simp)

theorem of_keyed {keyId : Option Bytes} (hledger : Ledger opened constructed (.keyed keyId :: marks)) :
    Ledger opened constructed marks := by
  refine ⟨?_, ?_, hledger.opened_le, ?_⟩
  · rw [← hledger.count_constructed, List.count_cons_of_ne (by simp)]
  · intro number
    rw [← hledger.count_closed, List.count_cons_of_ne (by simp)]
  · intro later number earlier hmarks
    apply hledger.used_before_closed (.keyed keyId :: later) number earlier
    rw [hmarks, List.cons_append]

theorem answered (number : Nat) (keyId : Bytes) (status : KeyStatus) (hledger : Ledger opened constructed marks) :
    Ledger opened constructed (.answered number keyId status :: marks) :=
  hledger.cons (by simp) (by simp) (by simp)

theorem open_not_closed {number : Nat} (hledger : Ledger (some number) constructed marks) : .closed number ∉ marks := by
  rw [← List.count_eq_zero, hledger.count_closed, if_neg (by simp)]

theorem used {number : Nat} (hledger : Ledger (some number) constructed marks) :
    Ledger (some number) constructed (.used number :: marks) := by
  apply hledger.cons (by simp) (by simp)
  intro other hused
  cases hused
  exact hledger.open_not_closed

theorem closed {number : Nat} (hledger : Ledger (some number) constructed marks) :
    Ledger none constructed (.closed number :: marks) := by
  have hle := hledger.opened_le number rfl
  refine ⟨?_, ?_, by simp, hledger.used_cons (by simp)⟩
  · rw [List.count_cons_of_ne (by simp), hledger.count_constructed]
  · intro other
    rw [List.count_cons, hledger.count_closed]
    by_cases hother : other = number
    · subst hother
      simp [hle]
    · simp [Ne.symm hother]

theorem construction (hledger : Ledger none constructed marks) :
    Ledger (some (constructed + 1)) (constructed + 1) (.constructed :: marks) := by
  refine ⟨?_, ?_, by simp, hledger.used_cons (by simp)⟩
  · rw [List.count_cons_self, hledger.count_constructed]
  · intro number
    rw [List.count_cons_of_ne (by simp), hledger.count_closed]
    have hnumbers : 0 < number ∧ number ≤ constructed ↔
        0 < number ∧ number ≤ constructed + 1 ∧ some (constructed + 1) ≠ some number := by
      simp only [ne_eq, Option.some.injEq]
      omega
    simp [hnumbers]

theorem opened_of_not_closed {number : Nat} (hledger : Ledger opened constructed marks) (hpos : 0 < number)
    (hle : number ≤ marks.count .constructed) (hclosed : .closed number ∉ marks) : opened = some number := by
  by_contra hopened
  have hcount := hledger.count_closed number
  rw [hledger.count_constructed] at hle
  rw [if_pos ⟨hpos, hle, hopened⟩, List.count_eq_zero.mpr hclosed] at hcount
  cases hcount

end Ledger

/-! ### Facts about the key -/

namespace KeyKept

variable {opened : Option Nat} {isLocked : Bool} {key : KeyMaterial} {marks : List Mark}

theorem unanswered (hkeyId : key.keyId = (lastKey? marks).getD []) (hstatus : key.status = none) :
    KeyKept opened isLocked key marks := by
  refine ⟨hkeyId, ?_⟩
  intro status hsome
  rw [hstatus] at hsome
  cases hsome

/-- A key whose status the open native session has just told. -/
theorem ofAnswer {number : Nat} {keyId : Bytes} {status : KeyStatus} (hopened : opened = some number)
    (hkeyId : lastKey? marks = some keyId) (hanswer : lastAnswer? marks = some (number, keyId, status)) :
    KeyKept opened isLocked { keyId, status := some status } marks := by
  refine ⟨by rw [hkeyId, Option.getD_some], ?_⟩
  intro told htold
  cases htold
  exact .inr ⟨number, keyId, hopened, hkeyId, hanswer⟩

theorem used (number : Nat) (hkey : KeyKept opened isLocked key marks) :
    KeyKept opened isLocked key (.used number :: marks) :=
  ⟨hkey.keyId_eq, hkey.answered⟩

theorem closed (number : Nat) (hkey : KeyKept opened true key marks) :
    KeyKept none true key (.closed number :: marks) :=
  ⟨hkey.keyId_eq, fun _ _ => .inl ⟨rfl, rfl⟩⟩

theorem locked (hkey : KeyKept opened false key marks) : KeyKept opened true key marks := by
  refine ⟨hkey.keyId_eq, ?_⟩
  intro status hstatus
  exact .inr ((hkey.answered status hstatus).resolve_left (by simp))

/-- The lock can be given back once no status is left over. -/
theorem unlocked (hkey : KeyKept opened isLocked key marks) (hleft : opened = none → key.status = none) :
    KeyKept opened false key marks := by
  refine ⟨hkey.keyId_eq, ?_⟩
  intro status hstatus
  refine .inr ((hkey.answered status hstatus).resolve_left ?_)
  rintro ⟨-, hnone⟩
  rw [hleft hnone] at hstatus
  cases hstatus

theorem lastKey?_eq (hkey : KeyKept opened isLocked key marks) (hkeyId : key.keyId ≠ []) :
    lastKey? marks = some key.keyId := by
  have hkept := hkey.keyId_eq
  cases hlast : lastKey? marks with
  | none =>
    rw [hlast, Option.getD_none] at hkept
    exact absurd hkept hkeyId
  | some keyId => rw [hkept, hlast, Option.getD_some]

theorem status_eq_none (hkey : KeyKept none false key marks) : key.status = none := by
  cases hstatus : key.status with
  | none => rfl
  | some status =>
    rcases hkey.answered status hstatus with ⟨hlocked, -⟩ | ⟨number, keyId, hopened, -⟩
    · cases hlocked
    · cases hopened

end KeyKept

/-! ### Facts about custody -/

namespace Custody

variable {pinned : Nat} {holding : Holding} {marks : List Mark}

theorem initial (setting : Setting) : Custody 0 (Session.ofSetting setting).holding [] := by
  refine ⟨⟨Ledger.empty, fun _ => rfl, ?_⟩, fun _ => ?_⟩
  · intro hlocked
    cases hlocked
  · exact .unanswered rfl rfl

/-- Without handles in use, nobody holds the lock. -/
theorem unlocked (hcustody : Custody pinned holding marks) (hpinned : pinned = 0) : holding.isLocked = false := by
  by_contra hlocked
  have hheld := hcustody.held (by simpa using hlocked)
  omega

/-- Without a handle, there is no key to keep. -/
theorem ofGone (hguarded : Guarded pinned holding marks) (hgone : holding.handles = 0) :
    Custody pinned holding marks := by
  refine ⟨hguarded, ?_⟩
  intro hhandle
  exact absurd hgone (Nat.ne_of_gt hhandle)

theorem borrow (hcustody : Custody pinned holding marks) (hhandle : 0 < holding.handles) :
    Custody (max 1 pinned) holding marks := by
  refine ⟨⟨hcustody.ledger, hcustody.gone, ?_⟩, hcustody.key⟩
  intro _
  exact ⟨by omega, hhandle⟩

/-- Whoever gives a handle back has given the lock back before, unless it was held already. -/
theorem giveBack {pinned' : Nat} {before : Holding} {earlier : List Mark} (hcustody : Custody pinned' holding marks)
    (hbefore : Custody pinned before earlier) (hlocked : holding.isLocked = before.isLocked) :
    Custody pinned holding marks := by
  refine ⟨⟨hcustody.ledger, hcustody.gone, ?_⟩, hcustody.key⟩
  intro hheld
  exact ⟨(hbefore.held (hlocked ▸ hheld)).1, (hcustody.held hheld).2⟩

theorem retain {pinned' : Nat} (hcustody : Custody pinned holding marks) (hhandle : 0 < holding.handles)
    (hle : pinned ≤ pinned') : Custody pinned' { holding with handles := holding.handles + 1 } marks := by
  refine ⟨⟨hcustody.ledger, ?_, ?_⟩, fun _ => hcustody.key hhandle⟩
  · intro hgone
    cases hgone
  · intro hlocked
    exact ⟨Nat.lt_of_lt_of_le (hcustody.held hlocked).1 hle, Nat.succ_pos holding.handles⟩

theorem release {pinned' : Nat} (hcustody : Custody pinned' holding marks) (hshared : 1 < holding.handles)
    (hheld : holding.isLocked = true → 0 < pinned) :
    Custody pinned { holding with handles := holding.handles - 1 } marks := by
  have hleft : 0 < holding.handles - 1 := by omega
  refine ⟨⟨hcustody.ledger, ?_, fun hlocked => ⟨hheld hlocked, hleft⟩⟩, fun _ => hcustody.key (by omega)⟩
  intro hgone
  exact absurd hgone (Nat.ne_of_gt hleft)

theorem used {number : Nat} (hcustody : Custody pinned holding marks) (hopened : holding.opened = some number) :
    Custody pinned holding (.used number :: marks) := by
  refine ⟨⟨?_, hcustody.gone, hcustody.held⟩, fun hhandle => (hcustody.key hhandle).used number⟩
  rw [hopened]
  exact Ledger.used (hopened ▸ hcustody.ledger)

end Custody

/-! ### Facts about what stays -/

namespace Stays

variable {pinned : Nat} {before between after : Holding}

theorem refl (pinned : Nat) (holding : Holding) : Stays pinned holding holding :=
  ⟨rfl, Nat.min_le_right _ _, id⟩

theorem trans (hfirst : Stays pinned before between) (hthen : Stays pinned between after) :
    Stays pinned before after := by
  refine ⟨hthen.isLocked_eq.trans hfirst.isLocked_eq, ?_, ?_⟩
  · have hhandles := hfirst.le_handles
    have hhandles' := hthen.le_handles
    omega
  · intro hgone
    exact hthen.handles_eq_zero (hfirst.handles_eq_zero hgone)

theorem mono {pinned' : Nat} (hstays : Stays pinned' before after) (hle : pinned ≤ pinned') :
    Stays pinned before after := by
  have hhandles := hstays.le_handles
  exact ⟨hstays.isLocked_eq, by omega, hstays.handles_eq_zero⟩

theorem handles_pos (hstays : Stays pinned before after) (hpinned : 0 < pinned) (hhandle : 0 < before.handles) :
    0 < after.handles := by
  have hhandles := hstays.le_handles
  omega

/-- Whoever did not find the session locked relies on nothing else. -/
theorem undisturbed (hstays : Stays pinned before after) (hunlocked : before.isLocked = false) :
    Undisturbed pinned before after := by
  refine ⟨hstays, ?_, ?_⟩
  · intro hlocked
    rw [hunlocked] at hlocked
    cases hlocked
  · intro hlocked
    rw [hunlocked] at hlocked
    cases hlocked

end Stays

namespace Undisturbed

variable {pinned : Nat} {before between after : Holding}

theorem refl (pinned : Nat) (holding : Holding) : Undisturbed pinned holding holding :=
  ⟨.refl pinned holding, fun _ => rfl, fun _ hstatus => hstatus⟩

theorem trans (hfirst : Undisturbed pinned before between) (hthen : Undisturbed pinned between after) :
    Undisturbed pinned before after := by
  refine ⟨hfirst.toStays.trans hthen.toStays, ?_, ?_⟩
  · intro hlocked
    rw [hthen.opened_eq (hfirst.isLocked_eq.trans hlocked), hfirst.opened_eq hlocked]
  · intro hlocked hstatus
    exact hthen.status_eq_none (hfirst.isLocked_eq.trans hlocked) (hfirst.status_eq_none hlocked hstatus)

theorem mono {pinned' : Nat} (hundisturbed : Undisturbed pinned' before after) (hle : pinned ≤ pinned') :
    Undisturbed pinned before after :=
  ⟨hundisturbed.toStays.mono hle, hundisturbed.opened_eq, hundisturbed.status_eq_none⟩

end Undisturbed

end ContentProtection.Native
