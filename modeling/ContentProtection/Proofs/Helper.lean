import ContentProtection.Helper.Registry

/-!
# What helpers make of data

Whether a helper of a known system takes data is decided by the data alone. When it refuses them it holds what it held before; when it takes them, the fields that its readings write are those of a helper that held nothing.
-/

namespace ContentProtection.Helper

/-! ### What readings write -/

/-- What a helper of the system holds after it took data: the fields that its readings write, from these contents, and the others as they were. -/
def written (taken : Contents) : ProtectionSystem → Contents → Contents
  | .widevine, held | .clearKey, held => { held with initData := taken.initData, keyIds := taken.keyIds }
  | .playReady, _ => taken
  | .verimatrix, held => { held with initData := taken.initData }

/-- All fields are written each time, so nothing is left of what was written before. -/
theorem written_written (taken earlier : Contents) (system : ProtectionSystem) (held : Contents) :
    written taken system (written earlier system held) = written taken system held := by
  cases system <;> rfl

/-- A helper tells nothing but what its readings write and what the manifest says. -/
theorem contents_written (taken : Contents) (system : ProtectionSystem) (info : ProtectionInfo) (held : Contents) :
    contents ⟨.ofSystem system, info, written taken system held⟩ = contents ⟨.ofSystem system, info, taken⟩ := by
  cases system <;> rfl

theorem initData_contents (system : ProtectionSystem) (info : ProtectionInfo) (held : Contents) :
    (contents ⟨.ofSystem system, info, held⟩).initData = held.initData := by
  cases system <;> rfl

/-! ### How readings end -/

/-- The reading refuses, for the same reason whatever is held, and what is held stays. -/
def Refused (reading : Reading) : Prop := ∃ refusal, ∀ held, reading.run held = (.error refusal, held)

/-- The reading takes the data whatever is held, and writes these contents. -/
def Writes (reading : Reading) (system : ProtectionSystem) (taken : Contents) : Prop :=
  ∀ held, reading.run held = (.ok (), written taken system held)

section

variable {data : Bytes} {pssh : Pssh} {keyIds : List Uuid} {header : PlayReady.Header}

theorem writes_readWidevine (hparse : Pssh.parse false data = .ok pssh) (hkeyIds : pssh.keyIds = .ok keyIds)
    (hsystem : pssh.systemId = ProtectionSystem.widevine.uuid) :
    Writes (readWidevine data) .widevine { initData := data, keyIds } := by
  intro held
  simp only [readWidevine, hparse, hkeyIds, ne_eq, hsystem, not_true_eq_false, if_false]
  rfl

theorem writes_readPlayReady (hparse : Pssh.parse false data = .ok pssh)
    (hheader : PlayReady.Header.ofObject pssh.initData = .ok header) :
    Writes (readPlayReady data) .playReady
      { initData := data, keyIds := header.keyIds, licenseUrl := header.licenseUrl } := by
  intro held
  simp only [readPlayReady, hparse, hheader]
  rfl

theorem writes_readClearKey (hparse : Pssh.parse true data = .ok pssh) (hkeyIds : pssh.keyIds = .ok keyIds)
    (hsome : keyIds ≠ []) : Writes (readClearKey data) .clearKey { initData := data, keyIds } := by
  intro held
  cases keyIds with
  | nil => exact absurd rfl hsome
  | cons keyId others =>
    simp only [readClearKey, hparse, hkeyIds]
    rfl

end

theorem readWidevine_cases (data : Bytes) :
    Refused (readWidevine data) ∨ ∃ keyIds, Writes (readWidevine data) .widevine { initData := data, keyIds } := by
  cases hparse : Pssh.parse false data with
  | error fault =>
    refine .inl ⟨.unusable, fun held => ?_⟩
    simp only [readWidevine, hparse]
    rfl
  | ok pssh =>
    cases hkeyIds : pssh.keyIds with
    | error cause =>
      refine .inl ⟨.noKeyIds cause, fun held => ?_⟩
      simp only [readWidevine, hparse, hkeyIds]
      rfl
    | ok keyIds =>
      by_cases hsystem : pssh.systemId = ProtectionSystem.widevine.uuid
      · exact .inr ⟨keyIds, writes_readWidevine hparse hkeyIds hsystem⟩
      · refine .inl ⟨.unusable, fun held => ?_⟩
        simp only [readWidevine, hparse, hkeyIds, ne_eq, hsystem, not_false_eq_true, if_true]
        rfl

theorem readPlayReady_cases (data : Bytes) :
    Refused (readPlayReady data) ∨
      ∃ header : PlayReady.Header, Writes (readPlayReady data) .playReady
        { initData := data, keyIds := header.keyIds, licenseUrl := header.licenseUrl } := by
  cases hparse : Pssh.parse false data with
  | error fault =>
    refine .inl ⟨.unusable, fun held => ?_⟩
    simp only [readPlayReady, hparse]
    rfl
  | ok pssh =>
    cases hheader : PlayReady.Header.ofObject pssh.initData with
    | error fault =>
      refine .inl ⟨.noHeader (.playReady fault), fun held => ?_⟩
      simp only [readPlayReady, hparse, hheader]
      rfl
    | ok header => exact .inr ⟨header, writes_readPlayReady hparse hheader⟩

theorem readClearKey_cases (data : Bytes) :
    Refused (readClearKey data) ∨ ∃ keyIds, Writes (readClearKey data) .clearKey { initData := data, keyIds } := by
  cases hparse : Pssh.parse true data with
  | error fault =>
    refine .inl ⟨.unusable, fun held => ?_⟩
    simp only [readClearKey, hparse]
    rfl
  | ok pssh =>
    rcases hkeyIds : pssh.keyIds with cause | _ | ⟨keyId, others⟩
    · refine .inl ⟨.unusable, fun held => ?_⟩
      simp only [readClearKey, hparse, hkeyIds]
      rfl
    · refine .inl ⟨.unusable, fun held => ?_⟩
      simp only [readClearKey, hparse, hkeyIds]
      rfl
    · exact .inr ⟨_, writes_readClearKey hparse hkeyIds (List.cons_ne_nil _ _)⟩

theorem readVerimatrix_cases (data : Bytes) :
    Refused (readVerimatrix data) ∨ Writes (readVerimatrix data) .verimatrix { initData := data } := by
  cases data with
  | nil => exact .inl ⟨.unusable, fun held => rfl⟩
  | cons byte rest => exact .inr fun held => rfl

theorem Kind.read_clearKey (info : ProtectionInfo) (data : Bytes) :
    (Kind.ofSystem .clearKey).read info data = readClearKey data := rfl

/-- A reading refuses the data whatever is held, or writes the same fields with the same values whatever is held. What the manifest says does not matter. -/
theorem read_cases (system : ProtectionSystem) (data : Bytes) :
    (∀ info, Refused ((Kind.ofSystem system).read info data)) ∨
      ∃ taken : Contents, taken.initData = data ∧
        ∀ info, Writes ((Kind.ofSystem system).read info data) system taken := by
  cases system with
  | widevine =>
    rcases readWidevine_cases data with hrefused | ⟨keyIds, hwrites⟩
    · exact .inl fun _ => hrefused
    · exact .inr ⟨_, rfl, fun _ => hwrites⟩
  | playReady =>
    rcases readPlayReady_cases data with hrefused | ⟨header, hwrites⟩
    · exact .inl fun _ => hrefused
    · exact .inr ⟨_, rfl, fun _ => hwrites⟩
  | clearKey =>
    rcases readClearKey_cases data with hrefused | ⟨keyIds, hwrites⟩
    · exact .inl fun _ => hrefused
    · exact .inr ⟨_, rfl, fun _ => hwrites⟩
  | verimatrix =>
    rcases readVerimatrix_cases data with hrefused | hwrites
    · exact .inl fun _ => hrefused
    · exact .inr ⟨_, rfl, fun _ => hwrites⟩

/-! ### Offers -/

section

variable {helper : Helper} {system : ProtectionSystem} {taken : Contents} {data : Bytes}

theorem offer_of_refused (hrefused : Refused (helper.kind.read helper.info data)) :
    helper.offer data = (false, helper) := by
  obtain ⟨refusal, hrun⟩ := hrefused
  simp only [offer, hrun]
  rfl

theorem offer_of_writes (hwrites : Writes (helper.kind.read helper.info data) system taken) :
    helper.offer data = (true, { helper with held := written taken system helper.held }) := by
  simp only [offer, hwrites helper.held]
  rfl

theorem read_of_refused (hrefused : Refused (helper.kind.read helper.info data)) :
    ∃ refusal, helper.read data = .error refusal := by
  obtain ⟨refusal, hrun⟩ := hrefused
  refine ⟨refusal, ?_⟩
  simp only [read, hrun]
  rfl

theorem read_of_writes (hwrites : Writes (helper.kind.read helper.info data) system taken) :
    helper.read data = .ok { helper with held := written taken system helper.held } := by
  simp only [read, hwrites helper.held]
  rfl

end

theorem refused_nil (system : ProtectionSystem) (info : ProtectionInfo) :
    Refused ((Kind.ofSystem system).read info []) :=
  ⟨.unusable, fun held => by cases system <;> rfl⟩

theorem helperFor?_standard {system : ProtectionSystem} {info : ProtectionInfo}
    (hsystem : info.systemUuid = system.uuid.toText) :
    Registry.standard.helperFor? info = some (ofInfo (Kind.ofSystem system) info) := by
  have huuid : Registry.readSystemUuid? system.uuid.toText = some system.uuid := by
    cases system <;> decide +kernel
  have hfactory : Registry.standard.find? system.uuid = some (ofInfo (Kind.ofSystem system)) := by
    cases system <;> rfl
  rw [Registry.helperFor?, hsystem, huuid, Option.bind_eq_bind, Option.bind_some, hfactory]
  rfl

/-- Data that is read as the header, strictly and leniently, and that every helper of the system takes with these contents, whatever it holds. -/
structure ReadsAs (system : ProtectionSystem) (data : Bytes) (header : Pssh) (contents : Contents) : Prop where
  parse : ∀ strict, Pssh.parse strict data = .ok header
  keyIds : header.keyIds = .ok contents.keyIds
  offer : ∀ info held, ∃ after, Helper.offer ⟨.ofSystem system, info, held⟩ data = (true, after) ∧
    after.kind = .ofSystem system ∧ after.info = info ∧ after.contents = contents

theorem readsAs_widevine {data : Bytes} {header : Pssh} {keyIds : List Uuid}
    (hparse : ∀ strict, Pssh.parse strict data = .ok header) (hkeyIds : header.keyIds = .ok keyIds)
    (hsystem : header.systemId = ProtectionSystem.widevine.uuid) :
    ReadsAs .widevine data header { initData := data, keyIds } where
  parse := hparse
  keyIds := hkeyIds
  offer _ _ := ⟨_, offer_of_writes (writes_readWidevine (hparse false) hkeyIds hsystem), rfl, rfl, rfl⟩

theorem readsAs_playReady {data : Bytes} {contents : PlayReady.Header}
    (hparse : ∀ strict, Pssh.parse strict data = .ok (Pssh.wrap .playReady data))
    (hheader : PlayReady.Header.ofObject data = .ok contents) :
    ReadsAs .playReady data (Pssh.wrap .playReady data)
      { initData := data, keyIds := contents.keyIds, licenseUrl := contents.licenseUrl } where
  parse := hparse
  keyIds := by
    have hversion : ¬((0 : UInt8) = 1 ∧ ([] : List Uuid) ≠ []) := by decide
    have hsystem : ProtectionSystem.ofUuid? ProtectionSystem.playReady.uuid = some .playReady := by decide
    rw [Pssh.keyIds, Pssh.wrap, if_neg hversion]
    dsimp only
    rw [hsystem]
    dsimp only
    rw [hheader]
    rfl
  offer _ _ := ⟨_, offer_of_writes (writes_readPlayReady (hparse false) hheader), rfl, rfl, rfl⟩

end ContentProtection.Helper
