import ContentProtection.Proofs.Helper
import ContentProtection.Proofs.PlayReady.Header
import ContentProtection.Proofs.PlayReady.Object

/-!
# Data offered one after the other

A helper that is offered data several times is in the end as if it had been offered the last data that it took and nothing else. What it takes does not depend on what it took before.
-/

namespace ContentProtection.Helper

/-- The helper after it was offered data one after the other, and whether it took each of them. -/
def offerAll (helper : Helper) : List Bytes → List Bool × Helper
  | [] => ([], helper)
  | data :: offers =>
    let (isTaken, next) := helper.offer data
    let (areTaken, last) := next.offerAll offers
    (isTaken :: areTaken, last)

/-- Whether a helper that has not read anything takes the data. -/
def takes (kind : Kind) (info : ProtectionInfo) (data : Bytes) : Bool := ((ofInfo kind info).offer data).1

/-- The data that such a helper takes last. -/
def lastTaken? (kind : Kind) (info : ProtectionInfo) (offers : List Bytes) : Option Bytes :=
  (offers.filter (takes kind info)).getLast?

/-! ### One offer -/

section

variable {kind : Kind} {info : ProtectionInfo} {data : Bytes} {offers : List Bytes}

theorem lastTaken?_cons_of_refuses (hrefuses : takes kind info data = false) :
    lastTaken? kind info (data :: offers) = lastTaken? kind info offers := by
  rw [lastTaken?, List.filter_cons_of_neg (by rw [hrefuses]; exact Bool.false_ne_true)]
  rfl

theorem lastTaken?_cons_of_takes (htakes : takes kind info data = true) :
    lastTaken? kind info (data :: offers) = some ((lastTaken? kind info offers).getD data) := by
  rw [lastTaken?, List.filter_cons_of_pos htakes, List.getLast?_cons]
  rfl

theorem takes_of_lastTaken? (hlast : lastTaken? kind info offers = some data) : takes kind info data = true :=
  (List.mem_filter.mp (List.mem_of_getLast? hlast)).2

end

variable {system : ProtectionSystem} {info : ProtectionInfo} {data : Bytes} {offers : List Bytes}

theorem offer_of_refuses (hrefuses : takes (.ofSystem system) info data = false) (held : Contents) :
    offer ⟨.ofSystem system, info, held⟩ data = (false, ⟨.ofSystem system, info, held⟩) := by
  rcases read_cases system data with hrefused | ⟨taken, -, hwrites⟩
  · exact offer_of_refused (hrefused info)
  · rw [takes, offer_of_writes (hwrites info)] at hrefuses
    cases hrefuses

/-- Data that are taken decide what is written, and the rest is as it was. -/
theorem offer_of_takes (htakes : takes (.ofSystem system) info data = true) :
    ∃ taken : Contents, taken.initData = data ∧ ∀ held,
      offer ⟨.ofSystem system, info, held⟩ data = (true, ⟨.ofSystem system, info, written taken system held⟩) := by
  rcases read_cases system data with hrefused | ⟨taken, hinitData, hwrites⟩
  · rw [takes, offer_of_refused (hrefused info)] at htakes
    cases htakes
  · exact ⟨taken, hinitData, fun _ => offer_of_writes (hwrites info)⟩

/-! ### Any number of offers -/

theorem offerAll_fst (held : Contents) :
    (offerAll ⟨.ofSystem system, info, held⟩ offers).1 = offers.map (takes (.ofSystem system) info) := by
  induction offers generalizing held with
  | nil => rfl
  | cons data offers ih =>
    cases htakes : takes (.ofSystem system) info data with
    | false => simp only [offerAll, offer_of_refuses htakes, ih, List.map_cons, htakes]
    | true =>
      obtain ⟨taken, -, hoffer⟩ := offer_of_takes htakes
      simp only [offerAll, hoffer, ih, List.map_cons, htakes]

/-- Whatever a helper holds, only the last data that it takes count. What earlier data wrote is written over by them. -/
theorem offerAll_snd (held : Contents) :
    (offerAll ⟨.ofSystem system, info, held⟩ offers).2 =
      (offerAll ⟨.ofSystem system, info, held⟩ (lastTaken? (.ofSystem system) info offers).toList).2 := by
  induction offers generalizing held with
  | nil => rfl
  | cons data offers ih =>
    cases htakes : takes (.ofSystem system) info data with
    | false =>
      rw [lastTaken?_cons_of_refuses htakes, ← ih]
      simp only [offerAll, offer_of_refuses htakes]
    | true =>
      obtain ⟨taken, -, hoffer⟩ := offer_of_takes htakes
      rw [lastTaken?_cons_of_takes htakes]
      simp only [offerAll, hoffer, ih, Option.toList_some]
      cases hlast : lastTaken? (.ofSystem system) info offers with
      | none => simp only [Option.toList_none, Option.getD_none, offerAll, hoffer]
      | some last =>
        obtain ⟨lastTaken, -, hofferLast⟩ := offer_of_takes (takes_of_lastTaken? hlast)
        simp only [Option.toList_some, Option.getD_some, offerAll, hofferLast, written_written]

/-- A helper of a known system takes what a fresh one takes, and it ends like a fresh one that was offered nothing but the last data it took; so these data are its init data, and there is none when it took nothing. -/
theorem last_taken_data_count (system : ProtectionSystem) (info : ProtectionInfo) (offers : List Bytes) :
    let fresh := ofInfo (.ofSystem system) info
    let last? := (offers.filter fun data => (fresh.offer data).1).getLast?
    (fresh.offerAll offers).1 = offers.map (fun data => (fresh.offer data).1) ∧
      (fresh.offerAll offers).2 = (fresh.offerAll last?.toList).2 ∧
      (fresh.offerAll offers).2.contents.initData = last?.getD [] := by
  intro fresh last?
  have hsnd : (fresh.offerAll offers).2 = (fresh.offerAll last?.toList).2 := offerAll_snd _
  refine ⟨offerAll_fst _, hsnd, ?_⟩
  rw [hsnd]
  cases hlast : last? with
  | none => cases system <;> rfl
  | some data =>
    obtain ⟨taken, hinitData, hoffer⟩ := offer_of_takes (takes_of_lastTaken? hlast)
    have htaken : fresh.offer data = (true, ⟨.ofSystem system, info, written taken system {}⟩) := hoffer _
    simp only [Option.toList_some, offerAll, htaken, Option.getD_some]
    rw [contents_written, initData_contents, hinitData]

/-- An earlier license server goes with the data that named it, and data that are refused name none. -/
theorem license_server_of_earlier_data_gone :
    let object (licenseUrl? : Option (List Char)) := PlayReady.objectOf (Utf16.encode
      (PlayReady.writeHeader true "4.0.0.0".toList [ProtectionSystem.clearKey.uuid] licenseUrl?))
    let naming := object (some "https://pr.example.com".toList)
    let offers := [naming, [0xff], object none, naming.dropLast]
    let fresh := ofInfo (.ofSystem .playReady) {}
    (fresh.offerAll [naming]).2.contents.licenseUrl = some "https://pr.example.com" ∧
      (fresh.offerAll offers).1 = [true, false, true, false] ∧
      (fresh.offerAll offers).2 = (fresh.offerAll [object none]).2 ∧
      (fresh.offerAll offers).2.contents =
        { initData := object none, keyIds := [ProtectionSystem.clearKey.uuid] } := by
  intro object naming offers fresh
  have hanswers : offers.map (fun data => (fresh.offer data).1) = [true, false, true, false] := by decide +kernel
  have hlastTaken : (offers.filter fun data => (fresh.offer data).1).getLast? = some (object none) := by decide +kernel
  obtain ⟨htaken, hlast, -⟩ := last_taken_data_count .playReady {} offers
  rw [hlastTaken] at hlast
  refine ⟨by decide +kernel, htaken.trans hanswers, hlast, ?_⟩
  rw [hlast]
  decide +kernel

end ContentProtection.Helper
