import ContentProtection.Proofs.Native.Exclusion
import ContentProtection.Proofs.Native.Lifecycle

/-!
# Payloads in a memory system

With a memory system, a payload is encoded before the native session decrypts it and decoded afterwards, unless that fails; then the transport form is given up. `Transported` lists all that one decryption can come to. Only decrypting goes to a memory system, and only one decryption at a time is past the session lock, so over a whole run every transport form that was made is given back or given up, once, before the next one is made.
-/

namespace ContentProtection.Native

open ContentProtection.Session (Fault Request)

/-! ### One decryption -/

/-- The course of a decryption by way of a memory system, between its beginning and its end and latest first, with what it comes to. -/
inductive Transported (entry : Session) (memory : MemoryId) (encryption : Sample.Encryption) (payload : Bytes) :
    List Entry → Except Fault Unit × Bytes → Prop
  | refused (hviolates : entry.violatesOutput = true) :
    Transported entry memory encryption payload [] (.error .hdcpCompliance, payload)
  | sessionless (hviolates : entry.violatesOutput = false) (hopened : entry.opened = none) :
    Transported entry memory encryption payload [] (.error .noSession, payload)
  | notEncoded (number : Nat) (hviolates : entry.violatesOutput = false) (hopened : entry.opened = some number) :
    Transported entry memory encryption payload
      [.replied (.encode memory payload) none, .asked (.encode memory payload)] (.error .memorySystem, payload)
  | notDecrypted (number : Nat) (encoded left : Bytes) (status : Int) (hviolates : entry.violatesOutput = false)
    (hopened : entry.opened = some number) :
    Transported entry memory encryption payload
      [.replied (.terminateEarly memory) (), .asked (.terminateEarly memory),
        .replied (.decrypt number encryption encoded) (.error status, left),
        .asked (.decrypt number encryption encoded),
        .replied (.encode memory payload) (some encoded), .asked (.encode memory payload)]
      (.error (.status status), payload)
  | decoded (number : Nat) (encoded decrypted buffer : Bytes) (success : Bool)
    (hviolates : entry.violatesOutput = false) (hopened : entry.opened = some number) :
    Transported entry memory encryption payload
      [.replied (.decode memory decrypted payload) (success, buffer), .asked (.decode memory decrypted payload),
        .replied (.decrypt number encryption encoded) (.ok (), decrypted),
        .asked (.decrypt number encryption encoded),
        .replied (.encode memory payload) (some encoded), .asked (.encode memory payload)]
      (if success then .ok () else .error .memorySystem, buffer)

/-! ### Transport forms -/

/-- What becomes of a transport form. -/
inductive Transport
  | encoding (memory : MemoryId)
  | failed (memory : MemoryId)
  | encoded (memory : MemoryId)
  /-- Decoded or given up. -/
  | returned (memory : MemoryId)
  deriving DecidableEq

def Entry.transport? : Entry → Option Transport
  | .asked (.encode memory _) => some (.encoding memory)
  | .replied (.encode memory _) none => some (.failed memory)
  | .replied (.encode memory _) (some _) => some (.encoded memory)
  | .asked (.decode memory _ _) | .asked (.terminateEarly memory) => some (.returned memory)
  | _ => none

/-- Latest first, as the history. -/
def History.transports (history : History) : List Transport := history.filterMap Entry.transport?

/-- Every transport form that was made has been returned before anything else was encoded. -/
inductive Balanced : List Transport → Prop
  | nil : Balanced []
  | failed (memory : MemoryId) {earlier : List Transport} (hearlier : Balanced earlier) :
    Balanced (.failed memory :: .encoding memory :: earlier)
  | returned (memory : MemoryId) {earlier : List Transport} (hearlier : Balanced earlier) :
    Balanced (.returned memory :: .encoded memory :: .encoding memory :: earlier)

/-- What a request leaves open while it is awaited. -/
inductive Pending : Request → List Transport → Prop
  | encoding (memory : MemoryId) (payload : Bytes) : Pending (.encode memory payload) [.encoding memory]
  | encoded (memory : MemoryId) (number : Nat) (encryption : Sample.Encryption) (data : Bytes) :
    Pending (.decrypt number encryption data) [.encoded memory, .encoding memory]

theorem Balanced.append {later earlier : List Transport} (hlater : Balanced later) (hearlier : Balanced earlier) :
    Balanced (later ++ earlier) := by
  induction hlater with
  | nil => exact hearlier
  | failed memory _ ih => exact .failed memory ih
  | returned memory _ ih => exact .returned memory ih

/-! ### The steps of a decryption -/

/-- The steps of a decryption: what is open at its requests, and what it comes to. -/
inductive Decrypts (encryption : Sample.Encryption) (payload : Bytes) : List Entry → Prop
  | asks (request : Request) (course : List Entry)
    (hopen : Balanced (History.transports (.asked request :: course)) ∨
      Pending request (History.transports (.asked request :: course))) :
    Decrypts encryption payload (.asked request :: course)
  | ends (entry : Session) (asked : List Asked) (result : Except Fault Unit × Bytes) (course : List Entry)
    (hcourse : ∀ memory, entry.memory = some memory → Transported entry memory encryption payload course result)
    (hbalanced : Balanced (History.transports course)) :
    Decrypts encryption payload (.ended ⟨.call (.decrypt encryption payload), entry, asked, result⟩ ::
      (course ++ [.began (.call (.decrypt encryption payload))]))

theorem Decrypts.leaves {encryption : Sample.Encryption} {payload : Bytes} {request : Request} {course : List Entry}
    (hdecrypts : Decrypts encryption payload (.asked request :: course)) :
    Balanced (History.transports (.asked request :: course)) ∨
      Pending request (History.transports (.asked request :: course)) := by
  cases hdecrypts with
  | asks request course hopen => exact hopen

theorem Decrypts.balanced {encryption : Sample.Encryption} {payload : Bytes} {record : Record} {course : List Entry}
    (hdecrypts : Decrypts encryption payload (.ended record :: course)) :
    Balanced (History.transports (.ended record :: course)) := by
  cases hdecrypts with
  | ends entry asked result course hcourse hbalanced =>
    have hended : History.transports (.ended ⟨.call (.decrypt encryption payload), entry, asked, result⟩ ::
        (course ++ [.began (.call (.decrypt encryption payload))])) = History.transports course :=
      (List.filterMap_append (l := course)).trans (List.append_nil _)
    exact hended ▸ hbalanced

theorem Decrypts.transported {encryption : Sample.Encryption} {payload : Bytes} {entry : Session} {asked : List Asked}
    {result : Except Fault Unit × Bytes} {course : List Entry} {memory : MemoryId}
    (hdecrypts : Decrypts encryption payload
      (.ended ⟨.call (.decrypt encryption payload), entry, asked, result⟩ :: course))
    (hmemory : entry.memory = some memory) :
    ∃ steps, course = steps ++ [.began (.call (.decrypt encryption payload))] ∧
      Transported entry memory encryption payload steps result := by
  cases hdecrypts with
  | ends entry asked result steps hsteps hbalanced => exact ⟨steps, rfl, hsteps memory hmemory⟩

def decrypting : Conduct := fun activity course _ _ =>
  match activity with
  | .call (.decrypt encryption payload) => Decrypts encryption payload course
  | _ => True

section

variable {encryption : Sample.Encryption} {payload : Bytes} {entry session before : Session} {number : Nat}
  {asked : List Asked} {post : List Entry → List Asked → Session → Session → Except Fault Unit × Bytes → Prop}

/-- Decryption under the lock, with what its end needs: that the course was one of those listed. -/
theorem decrypts_opened (hviolates : entry.violatesOutput = false) (hopened : entry.opened = some number)
    (hmemory : session.memory = entry.memory)
    (hnext : ∀ course asked before after result,
      (∀ memory, entry.memory = some memory → Transported entry memory encryption payload course result) →
      Balanced (History.transports course) →
      post (course ++ [.began (.call (.decrypt encryption payload))]) asked before after result) :
    Proceeds (fun course _ _ => Decrypts encryption payload course) (decryptOpened number encryption payload session)
      [.began (.call (.decrypt encryption payload))] asked before post := by
  refine proceeds_bind.mpr (proceeds_get.mpr ?_)
  rw [hmemory]
  cases hentry : entry.memory with
  | none =>
    refine proceeds_bind.mpr (proceeds_ask.mpr ⟨.asks _ _ (.inl .nil), fun _ between decrypted => ?_⟩)
    have hnone : ∀ memory, entry.memory ≠ some memory := by simp [hentry]
    obtain ⟨status | _, buffer⟩ := decrypted
    · exact hnext [_, _] _ _ _ _ (fun memory hsome => absurd hsome (hnone memory)) .nil
    · exact hnext [_, _] _ _ _ _ (fun memory hsome => absurd hsome (hnone memory)) .nil
  | some memory =>
    have honly : ∀ course result, Transported entry memory encryption payload course result →
        ∀ other, entry.memory = some other → Transported entry other encryption payload course result := by
      rintro course result htransported other hother
      rw [hentry] at hother
      cases hother
      exact htransported
    refine proceeds_bind.mpr (proceeds_ask.mpr ⟨.asks _ _ (.inr (.encoding memory payload)), fun _ _ encoded => ?_⟩)
    cases encoded with
    | none => exact hnext [_, _] _ _ _ _ (honly _ _ (.notEncoded number hviolates hopened)) (.failed memory .nil)
    | some encoded =>
      refine proceeds_bind.mpr (proceeds_ask.mpr
        ⟨.asks _ _ (.inr (.encoded memory number encryption encoded)), fun _ _ decrypted => ?_⟩)
      obtain ⟨status | _, decrypted⟩ := decrypted
      · refine proceeds_bind.mpr (proceeds_ask.mpr ⟨.asks _ _ (.inl (.returned memory .nil)), fun _ _ reply => ?_⟩)
        exact hnext [_, _, _, _, _, _] _ _ _ _
          (honly _ _ (.notDecrypted number encoded decrypted status hviolates hopened)) (.returned memory .nil)
      · refine proceeds_bind.mpr (proceeds_ask.mpr ⟨.asks _ _ (.inl (.returned memory .nil)), fun _ _ decoded => ?_⟩)
        obtain ⟨success, buffer⟩ := decoded
        have htransported := honly _ _ (.decoded number encoded decrypted buffer success hviolates hopened)
        cases success with
        | true => exact hnext [_, _, _, _, _, _] _ _ _ _ htransported (.returned memory .nil)
        | false => exact hnext [_, _, _, _, _, _] _ _ _ _ htransported (.returned memory .nil)

end

theorem decrypting_decrypt (encryption : Sample.Encryption) (payload : Bytes) :
    decrypting.KeptBy (.call (.decrypt encryption payload)) := by
  intro session
  show Proceeds (fun course _ _ => Decrypts encryption payload course) (decrypt encryption payload session) _ _ _ _
  rw [decrypt_eq]
  refine proceeds_bind.mpr (proceeds_get.mpr (proceeds_ite.mpr ⟨fun hviolates => ?_, fun hviolates => ?_⟩))
  · exact .ends session [] _ [] (fun memory _ => .refused hviolates) .nil
  rw [Bool.not_eq_true] at hviolates
  refine proceeds_bind.mpr (proceeds_bind.mpr (proceeds_bind.mpr (proceeds_get.mpr
    (proceeds_ite.mpr ⟨fun _ => ⟨.asks _ _ (.inl .nil), fun hlock => absurd rfl hlock⟩, fun _ => ?_⟩))))
  refine proceeds_pure.mpr (proceeds_modify.mpr (proceeds_bind.mpr (proceeds_get.mpr ?_)))
  cases hopened : session.opened with
  | none => exact .ends session [] _ [] (fun memory _ => .sessionless hviolates hopened) .nil
  | some number =>
    refine proceeds_bind.mpr (decrypts_opened hviolates hopened rfl ?_)
    intro course asked before after result hcourse hbalanced
    exact .ends session asked result course hcourse hbalanced

theorem decrypting_kept (activity : Activity) : decrypting.KeptBy activity := by
  cases activity with
  | event fired => exact fun _ => proceeds_of_forall (fun _ _ _ => trivial) fun _ _ _ _ _ => trivial
  | call made =>
    cases made with
    | decrypt encryption payload => exact decrypting_decrypt encryption payload
    | _ => exact fun _ => proceeds_of_forall (fun _ _ _ => trivial) fun _ _ _ _ _ => trivial

/-! ### Runs -/

variable {setting : Setting} {moment moment' : Moment} {move : Move}

/-- Only decrypting goes to a memory system. -/
theorem transport?_eq_none {activity : Activity} {request : Request} (hasks : activity.asks request = true)
    (hother : ∀ encryption payload, activity ≠ .call (.decrypt encryption payload)) :
    (Entry.asked request).transport? = none ∧ ∀ reply, (Entry.replied request reply).transport? = none := by
  cases request
  case encode | decode | terminateEarly =>
    cases activity with
    | event fired => cases fired <;> cases hasks
    | call made => cases made <;> first | exact absurd rfl (hother _ _) | cases hasks
  all_goals exact ⟨rfl, fun _ => rfl⟩

/-- Whether a suspended activity is a decryption past the session lock. -/
def Frame.IsDecryption (frame : Frame) : Prop :=
  ∃ encryption payload, frame.activity = .call (.decrypt encryption payload) ∧ frame.request ≠ .waitForLock

theorem Frame.IsDecryption.holdsLock {frame : Frame} (hdecryption : frame.IsDecryption) : frame.holdsLock = true := by
  obtain ⟨encryption, payload, hactivity, hlock⟩ := hdecryption
  rw [Frame.holdsLock_eq hlock, hactivity]
  rfl

/-- How things stand with transport forms: those that are made or open belong to the decryption that is under way, and all earlier ones are returned. -/
inductive Carried (moment : Moment) : Prop
  | rest (hfree : ∀ frame ∈ moment.frames, ¬frame.IsDecryption) (hbalanced : Balanced moment.history.transports)
  | underway (depth : Nat) (frame : Frame) (earlier : List Transport) (hframe : moment.frames[depth]? = some frame)
    (hdecryption : frame.IsDecryption)
    (hopen : Balanced (History.transports (moment.history.course depth)) ∨
      Pending frame.request (History.transports (moment.history.course depth)))
    (hearlier : Balanced earlier)
    (htransports : moment.history.transports = History.transports (moment.history.course depth) ++ earlier)

section

variable {activity : Activity} {below : List Frame} {first last : Entry}

theorem Moment.Step.transports_eq (hstep : Moment.Step moment move moment' activity below first last) :
    moment'.history.transports = History.transports [last, first] ++ moment.history.transports := by
  rw [hstep.history_eq]
  exact List.filterMap_append (l := [last, first])

/-- A step that goes to no memory system and is not one of the decryption under way leaves things as they stand. -/
theorem Carried.of_same (hstep : Moment.Step moment move moment' activity below first last) (hcarried : Carried moment)
    (htransports : History.transports [last, first] = [])
    (hfirst : ∀ frame : Frame, frame.activity = activity → ∀ reply, first = .replied frame.request reply →
      ¬frame.IsDecryption)
    (hlast : ∀ frame : Frame, frame.activity = activity → last = .asked frame.request → ¬frame.IsDecryption) :
    Carried moment' := by
  have hsame : moment'.history.transports = moment.history.transports := by
    rw [hstep.transports_eq, htransports, List.nil_append]
  cases hcarried with
  | rest hfree hbalanced =>
    refine .rest ?_ (hsame ▸ hbalanced)
    intro frame hframe
    rcases hstep.of_mem_frames hframe with hframe | ⟨hactivity, hasked⟩
    · exact hfree frame (hstep.mem_frames hframe).1
    · exact hlast frame hactivity hasked
  | underway depth frame earlier hframe hdecryption hopen hearlier hcarries =>
    rcases hstep.keeps_course hframe with ⟨depth', hframe', hcourse⟩ | ⟨-, hactivity, -, reply, hreplied⟩
    · rw [← hcourse] at hopen hcarries
      exact .underway depth' frame earlier hframe' hdecryption hopen hearlier (hsame.trans hcarries)
    · exact absurd hdecryption (hfirst frame hactivity reply hreplied)

/-- Only a decryption that has taken the session lock itself goes to a memory system, so none was under way before. -/
theorem Carried.begun {encryption : Sample.Encryption} {payload : Bytes}
    (hstep : Moment.Step moment move moment' (.call (.decrypt encryption payload)) moment.frames
      (.began (.call (.decrypt encryption payload))) last)
    (hreach' : Reachable setting moment') (hcarried : Carried moment)
    (hdecrypts : Decrypts encryption payload [last, .began (.call (.decrypt encryption payload))]) :
    Carried moment' := by
  cases hstep.stops with
  | ended record _ hafter => exact hcarried.of_same hstep rfl (by simp) (by simp)
  | asked frame hactivity hafter =>
    by_cases hlock : frame.request = .waitForLock
    · refine hcarried.of_same hstep (by rw [hlock]; rfl) (by simp) ?_
      rintro other - hasked ⟨-, -, -, hother⟩
      exact hother ((Entry.asked.inj hasked).symm.trans hlock)
    · have hdecryption : frame.IsDecryption := ⟨encryption, payload, hactivity, hlock⟩
      have hfree := hreach'.holdsLock_below hafter hdecryption.holdsLock
      cases hcarried with
      | underway depth other earlier hother hunderway =>
        have hholds := hunderway.holdsLock
        rw [hfree other (List.mem_of_getElem? hother)] at hholds
        cases hholds
      | rest _ hbalanced =>
        have hcourse : moment'.history.course 0 =
              [.asked frame.request, .began (.call (.decrypt encryption payload))] := by
          rw [hstep.history_eq]
          rfl
        refine .underway 0 frame moment.history.transports (by rw [hafter]; rfl) hdecryption ?_ hbalanced ?_
        · rw [hcourse]
          exact hdecrypts.leaves
        · rw [hcourse]
          exact hstep.transports_eq

/-- The decryption that goes on is the one under way, since no other one is past the lock. -/
theorem Carried.resumed {encryption : Sample.Encryption} {payload : Bytes} {top : Frame}
    {reply : ContentProtection.Session.Reply top.request}
    (hstep : Moment.Step moment move moment' (.call (.decrypt encryption payload)) below (.replied top.request reply)
      last)
    (hreach : Reachable setting moment) (htop : top.activity = .call (.decrypt encryption payload))
    (hframes : moment.frames = top :: below) (hlock : top.request ≠ .waitForLock) (hcarried : Carried moment)
    (hdecrypts : Decrypts encryption payload (last :: .replied top.request reply :: moment.history.course 0))
    (hkept : last ≠ .asked .waitForLock) : Carried moment' := by
  have hdecryption : top.IsDecryption := ⟨encryption, payload, htop, hlock⟩
  have hfree := hreach.holdsLock_below hframes hdecryption.holdsLock
  cases hcarried with
  | rest hnone => exact absurd hdecryption (hnone top (hframes ▸ List.mem_cons_self))
  | underway depth frame earlier hframe hunderway _ hearlier htransports =>
    have hdepth : depth = 0 := by
      cases depth with
      | zero => rfl
      | succ depth =>
        rw [hframes, List.getElem?_cons_succ] at hframe
        have hholds := hunderway.holdsLock
        rw [hfree frame (List.mem_of_getElem? hframe)] at hholds
        cases hholds
    subst hdepth
    have hafter : moment'.history.transports =
        History.transports (last :: .replied top.request reply :: moment.history.course 0) ++ earlier := by
      rw [hstep.transports_eq, htransports, ← List.append_assoc]
      congr 1
      exact (List.filterMap_append (l := [last, _])).symm
    cases hstep.stops with
    | ended record _ hended =>
      refine .rest ?_ ?_
      · intro other hother hunderway'
        rw [hended] at hother
        have hholds := hunderway'.holdsLock
        rw [hfree other hother] at hholds
        cases hholds
      · rw [hafter]
        exact hdecrypts.balanced.append hearlier
    | asked other hactivity hended =>
      have hcourse : moment'.history.course 0 =
          .asked other.request :: .replied top.request reply :: moment.history.course 0 := by
        rw [hstep.history_eq]
        rfl
      have hdecryption' : other.IsDecryption :=
        ⟨encryption, payload, hactivity, fun hwaits => hkept (congrArg Entry.asked hwaits)⟩
      rw [← hcourse] at hafter
      refine .underway 0 other earlier (by rw [hended]; rfl) hdecryption' ?_ hearlier hafter
      rw [hcourse]
      exact hdecrypts.leaves

end

theorem Reachable.carried (hreach : Reachable setting moment) : Carried moment := by
  refine induct (.rest (fun _ hframe => (List.not_mem_nil hframe).elim) .nil) ?_ hreach
  intro moment move moment' hreach hcarried hmove
  obtain ⟨activity, below, first, last, hstep, -, hasks, -, hdecrypting, hlocking⟩ :=
    hreach.step (fun activity => (decrypting_kept activity).and (locking_kept activity)) hmove
  rw [hstep.lastCourse_eq] at hdecrypting hlocking
  by_cases hdecrypt : ∃ encryption payload, activity = .call (.decrypt encryption payload)
  · obtain ⟨encryption, payload, rfl⟩ := hdecrypt
    cases hstep.starts with
    | begun hbefore hbegin =>
      subst hbefore
      exact hcarried.begun hstep (hreach.move hmove) hdecrypting
    | replied top reply htop hbefore hlock =>
      refine hcarried.resumed hstep hreach htop hbefore hlock hdecrypting ?_
      rintro rfl
      cases hlocking with
      | keeps request replied reply course hlock hsame => exact hlock rfl
  · have hother : ∀ encryption payload, activity ≠ .call (.decrypt encryption payload) :=
      fun encryption payload hactivity => hdecrypt ⟨encryption, payload, hactivity⟩
    have hframes : ∀ frame : Frame, frame.activity = activity → ¬frame.IsDecryption := by
      rintro frame rfl ⟨encryption, payload, hactivity, -⟩
      exact hother encryption payload hactivity
    have hlast : last.transport? = none := by
      cases hstep.stops with
      | ended record => rfl
      | asked frame => exact (transport?_eq_none (hasks _ rfl) hother).1
    have hfirst : first.transport? = none := by
      cases hstep.starts with
      | begun => rfl
      | replied top reply htop hbefore =>
        have htop' := hreach.frame_asks top (hbefore ▸ List.mem_cons_self)
        rw [htop] at htop'
        exact (transport?_eq_none htop' hother).2 reply
    exact hcarried.of_same hstep (by simp [History.transports, hlast, hfirst])
      (fun frame hactivity _ _ => hframes frame hactivity) fun frame hactivity _ => hframes frame hactivity

/-- With a memory system, a decryption comes to one of the cases of `Transported`, and its course from the beginning to the end is exactly what is listed there. Its steps change nothing but the session lock, and while it is suspended nothing begins but events. Over the whole run, transport forms are returned one by one: all that were made are returned, unless a decryption is being encoded for or is at the native session with the last one. -/
theorem decryption_through_memory_system (hreach : Reachable setting moment) :
    (∀ encryption payload entry asked result (earlier : History) memory,
      moment.history = .ended ⟨.call (.decrypt encryption payload), entry, asked, result⟩ :: earlier →
      entry.memory = some memory →
      ∃ course, earlier.course 0 = course ++ [.began (.call (.decrypt encryption payload))] ∧
        Transported entry memory encryption payload course result) ∧
    (∀ move moment' encryption payload, moment.move? move = some moment' →
      moment'.history.lastCourse.getLast? = some (.began (.call (.decrypt encryption payload))) →
      SameBut [.lock] moment.session moment'.session) ∧
    (∀ frame below encryption payload activity, moment.frames = frame :: below →
      frame.activity = .call (.decrypt encryption payload) → moment.mayBegin activity = true →
      ∃ event, activity = .event event) ∧
    ∃ earlier, Balanced earlier ∧
      (moment.history.transports = earlier ∨
        ∃ frame ∈ moment.frames, frame.IsDecryption ∧ ∃ left, Pending frame.request left ∧
          moment.history.transports = left ++ earlier) := by
  refine ⟨?_, ?_, ?_, ?_⟩
  · intro encryption payload entry asked result earlier memory hended hmemory
    obtain ⟨-, before, hdecrypts⟩ := hreach.ended decrypting_kept _ _ hended
    exact Decrypts.transported hdecrypts hmemory
  · intro move moment' encryption payload hmove hcourse
    obtain ⟨activity, below, first, last, hstep, hsame, -, hbegan, -⟩ := hreach.step decrypting_kept hmove
    rw [hcourse] at hbegan
    cases hbegan
    exact hsame
  · intro frame below encryption payload activity hframes hactivity hbegin
    have hasks := hreach.frame_asks frame (hframes ▸ List.mem_cons_self)
    rw [hactivity] at hasks
    rw [Moment.mayBegin, hframes, Bool.and_eq_true] at hbegin
    cases activity with
    | event fired => exact ⟨fired, rfl⟩
    | call made =>
      have hadmits : admits frame.request (.call made) = true := hbegin.2
      generalize frame.request = request at hasks hadmits
      cases request <;> first | exact Bool.noConfusion hasks | exact Bool.noConfusion hadmits
  · cases hreach.carried with
    | rest _ hbalanced => exact ⟨_, hbalanced, .inl rfl⟩
    | underway depth frame earlier hframe hdecryption hopen hearlier htransports =>
      rcases hopen with hbalanced | hpending
      · exact ⟨_, hbalanced.append hearlier, .inl htransports⟩
      · exact ⟨earlier, hearlier, .inr ⟨frame, List.mem_of_getElem? hframe, hdecryption, _, hpending, htransports⟩⟩

/-- Two payloads in a memory system: the native session fails to decrypt the first one, and the second one is decoded. A key update comes while the first one is decrypted. -/
def movesOfTransport : List Move :=
  [.begin (.call (.generate [] none)),
    .reply (.createSystem settingWithSideChannel.helper.keySystem) true,
    .reply (.construct [] none) (.ok "first"),
    .begin (.call (.setMemory (some ⟨1⟩))),
    .begin (.call (.decrypt {} [1])),
    .reply (.encode ⟨1⟩ [1]) (some [2]),
    .begin (.event (.keyUpdate [9])),
    .reply (.decrypt 1 {} [2]) (.error 7, [3]),
    .reply (.terminateEarly ⟨1⟩) (),
    .begin (.call (.decrypt {} [4])),
    .reply (.encode ⟨1⟩ [4]) (some [5]),
    .reply (.decrypt 1 {} [5]) (.ok (), [6]),
    .reply (.decode ⟨1⟩ [6] [4]) (true, [7])]

theorem decryption_through_memory_system_after_failure :
    ∃ moment entry asked earlier course, Reachable settingWithSideChannel moment ∧
      moment.history = .ended ⟨.call (.decrypt {} [4]), entry, asked, (.ok (), [7])⟩ :: earlier ∧
      Transported entry ⟨1⟩ {} [4] course (.ok (), [7]) ∧
      Balanced [.returned ⟨1⟩, .encoded ⟨1⟩, .encoding ⟨1⟩, .returned ⟨1⟩, .encoded ⟨1⟩,
        .encoding ⟨1⟩] := by
  have hrun : ∃ moment entry asked earlier, (Moment.initial settingWithSideChannel).run? movesOfTransport =
      some moment ∧
      moment.history = .ended ⟨.call (.decrypt {} [4]), entry, asked, (.ok (), [7])⟩ :: earlier ∧
      entry.memory = some ⟨1⟩ ∧ moment.frames = [] ∧
      moment.history.transports = [.returned ⟨1⟩, .encoded ⟨1⟩, .encoding ⟨1⟩, .returned ⟨1⟩,
        .encoded ⟨1⟩, .encoding ⟨1⟩] :=
    ⟨_, _, _, _, rfl, rfl, rfl, rfl, by decide⟩
  obtain ⟨moment, entry, asked, earlier, hrun, hended, hmemory, hframes, htransports⟩ := hrun
  have hreach : Reachable settingWithSideChannel moment := ⟨_, hrun⟩
  obtain ⟨hcourses, -, -, before, hbalanced, hreturned⟩ := decryption_through_memory_system hreach
  obtain ⟨course, -, htransported⟩ := hcourses _ _ _ _ _ _ _ hended hmemory
  rcases hreturned with hreturned | ⟨frame, hframe, -⟩
  · rw [← hreturned, htransports] at hbalanced
    exact ⟨moment, entry, asked, earlier, course, hreach, hended, htransported, hbalanced⟩
  · rw [hframes] at hframe
    exact absurd hframe List.not_mem_nil

end ContentProtection.Native
