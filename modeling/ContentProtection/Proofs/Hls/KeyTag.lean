import ContentProtection.Hls.KeyTag
import ContentProtection.Proofs.Helper
import ContentProtection.Proofs.Hls.Attributes
import ContentProtection.Proofs.Text.Base64
import Mathlib.Data.Bool.AllAny

/-!
# Key tags give helpers

A tag with its data in base64 gives the helper that the data makes, in whatever order its attributes stand. The data is arbitrary and the search does not know where values end, but base64 text cannot pass for an attribute: it has a boundary only at its start, and a name with `=` behind it is nowhere in base64 where padding could be.
-/

namespace ContentProtection.Hls

/-! ### Base64 text holds no attribute -/

theorem character_ne_equals : ∀ value < 64, Base64.standard.character value ≠ '=' := by decide

theorem standardText_plain (data : Bytes) :
    ∀ c ∈ Base64.standard.text data, isBoundary (some c) = false ∧ c ≠ '"' ∧ Blank.isBlank c = false :=
  List.forall_mem_map.mpr (Base64.forall_mem_encode (by decide) (by decide) data)

/-- A name with `=` behind it would be the text of all values, and what it lacks of whole groups of four at most two symbols. -/
theorem values_of_name {name : List Char} (hname : '=' ∉ name) {data : Bytes}
    (hstart : (name ++ ['=']).isPrefixOf (Base64.standard.text data ++ ['"']) = true) :
    (Base64.sextets data).map Base64.standard.character = name ∧ (name.length + Base64.missing data) % 4 = 0 ∧
      Base64.missing data ≤ 2 := by
  obtain ⟨rest, htext⟩ := List.isPrefixOf_iff_prefix.mp hstart
  rw [List.append_assoc] at htext
  obtain ⟨hvalues, -⟩ := Base64.sextets_of_equals character_ne_equals hname (by decide) htext.symm
  have hcount : name.length = (Base64.sextets data).length := by rw [← hvalues, List.length_map]
  exact ⟨hvalues, hcount ▸ Base64.length_sextets data, Base64.missing_le data⟩

/-- Nine characters and a pad symbol would be short of a group of four by three. -/
theorem no_keyFormat_in_base64 (data : Bytes) :
    ("KEYFORMAT".toList ++ ['=']).isPrefixOf (Base64.standard.text data ++ ['"']) = false := by
  rw [Bool.eq_false_iff]
  intro hstart
  obtain ⟨-, hlength, hmissing⟩ := values_of_name (by decide) hstart
  have hnine : "KEYFORMAT".toList.length = 9 := by decide
  omega

/-- Behind six characters both pad symbols stand, and the last value leaves four bits unused, which that of `D` does not. -/
theorem no_method_in_base64 (data : Bytes) :
    ("METHOD".toList ++ ['=']).isPrefixOf (Base64.standard.text data ++ ['"']) = false := by
  rw [Bool.eq_false_iff]
  intro hstart
  obtain ⟨hvalues, hlength, hmissing⟩ := values_of_name (by decide) hstart
  have hsix : "METHOD".toList.length = 6 := by decide
  obtain ⟨front, high, hsextets, hhigh⟩ := Base64.sextets_eq_append (show Base64.missing data = 2 by omega)
  have hlast : Base64.standard.character (high * 16) = 'D' := by
    rw [hsextets, List.map_append] at hvalues
    have hend := congrArg List.getLast? hvalues
    rw [List.map_singleton, List.getLast?_concat] at hend
    exact Option.some.inj hend
  have hother : ∀ high < 4, Base64.standard.character (high * 16) ≠ 'D' := by decide
  exact hother high hhigh hlast

/-! ### The entries of a tag -/

def dataUri (data : Bytes) : List Char := "data:text/plain;base64".toList ++ ',' :: Base64.standard.text data

def methodEntry : List Char := "METHOD=SAMPLE-AES-CTR".toList

def uriEntry (data : Bytes) : List Char := "URI=\"".toList ++ (dataUri data ++ ['"'])

def keyFormatEntry (system : ProtectionSystem) : List Char :=
  "KEYFORMAT=\"urn:uuid:".toList ++ (system.uuid.text ++ ['"'])

def versionsEntry : List Char := "KEYFORMATVERSIONS=\"1\"".toList

/-- The attributes of a key tag for a system, as they are written. -/
def entriesOf (system : ProtectionSystem) (data : Bytes) : List (List Char) :=
  [methodEntry, uriEntry data, keyFormatEntry system, versionsEntry]

/-- The address of data has no attribute in it other than its own. -/
theorem scan_uriEntry {name : List Char} (hname : IsName name)
    (hfront : scan name none "URI=\"data:text/plain;base64".toList = none) {data : Bytes}
    (hstart : (name ++ ['=']).isPrefixOf (Base64.standard.text data ++ ['"']) = false) :
    scan name none (uriEntry data) = none := by
  have hentry : uriEntry data =
      "URI=\"data:text/plain;base64".toList ++ ',' :: (Base64.standard.text data ++ ['"']) := by
    have hopen : "URI=\"data:text/plain;base64".toList = "URI=\"".toList ++ "data:text/plain;base64".toList := by decide
    rw [hopen, List.append_assoc]
    rfl
  have htext : ∀ c ∈ Base64.standard.text data ++ ['"'], isBoundary (some c) = false := by
    rw [List.forall_mem_append]
    exact ⟨fun c hmem => (standardText_plain data c hmem).1, List.forall_mem_singleton.mpr rfl⟩
  rw [hentry, scan_append_comma hname hfront]
  exact scan_eq_none_of_no_boundary htext hstart _

variable {system : ProtectionSystem} {data : Bytes} {entries : List (List Char)}

theorem findFrom_keyFormat (hperm : entries.Perm (entriesOf system data)) :
    findFrom "KEYFORMAT".toList none (joined entries) = some (Uuid.scheme ++ system.uuid.text) := by
  have hkey : IsName "KEYFORMAT".toList := by decide
  have hown : keyFormatEntry system =
      "KEYFORMAT".toList ++ '=' :: '"' :: (Uuid.scheme ++ system.uuid.text ++ ['"']) := by
    rw [List.append_assoc]
    rfl
  have hquote : '"' ∉ Uuid.scheme ++ system.uuid.text := by
    cases system <;> decide
  have hfront : (entriesOf system data).Perm (keyFormatEntry system :: [methodEntry, uriEntry data, versionsEntry]) :=
    (List.perm_middle : ([methodEntry, uriEntry data] ++ keyFormatEntry system :: [versionsEntry]).Perm _)
  refine findFrom_quoted_of_perm hkey hown hquote (hperm.trans hfront) ?_
  simp only [List.forall_mem_cons]
  exact ⟨by decide, scan_uriEntry hkey (by decide) (no_keyFormat_in_base64 data), by decide, nofun⟩

theorem findFrom_uri (hperm : entries.Perm (entriesOf system data)) :
    findFrom "URI".toList none (joined entries) = some (dataUri data) := by
  have hkey : IsName "URI".toList := by decide
  have hown : uriEntry data = "URI".toList ++ '=' :: '"' :: (dataUri data ++ ['"']) := by rfl
  have hquote : '"' ∉ dataUri data := by
    refine List.not_mem_append (by decide) (mt List.mem_cons.mp (not_or.mpr ⟨by decide, fun hmem => ?_⟩))
    exact (standardText_plain data _ hmem).2.1 rfl
  have hfront : (entriesOf system data).Perm (uriEntry data :: [methodEntry, keyFormatEntry system, versionsEntry]) :=
    (List.perm_middle : ([methodEntry] ++ uriEntry data :: [keyFormatEntry system, versionsEntry]).Perm _)
  refine findFrom_quoted_of_perm hkey hown hquote (hperm.trans hfront) ?_
  simp only [List.forall_mem_cons]
  exact ⟨by decide, by cases system <;> decide, by decide, nofun⟩

theorem findFrom_method (hperm : entries.Perm (entriesOf system data)) :
    findFrom "METHOD".toList none (joined entries) = some "SAMPLE-AES-CTR".toList := by
  have hkey : IsName "METHOD".toList := by decide
  have hown : methodEntry = "METHOD".toList ++ '=' :: "SAMPLE-AES-CTR".toList := by decide
  have hothers : ∀ entry ∈ [uriEntry data, keyFormatEntry system, versionsEntry],
      scan "METHOD".toList none entry = none := by
    simp only [List.forall_mem_cons]
    exact ⟨scan_uriEntry hkey (by decide) (no_method_in_base64 data), by cases system <;> decide, by decide, nofun⟩
  obtain ⟨after, hfound⟩ := findFrom_of_perm hkey hown hperm hothers
  rw [hfound]
  exact congrArg some (readValue_unquoted (by decide) (List.all_iff_forall_prop.mp (by decide)) after)

/-! ### The helper of a tag -/

theorem protectionDataOfUri_dataUri (data : Bytes) :
    protectionDataOfUri (String.ofList (dataUri data)) false = .ok data := by
  have hsplit : Search.splitAtFirst? [','] (dataUri data) =
      some ("data:text/plain;base64".toList, Base64.standard.text data) :=
    Search.splitAtFirst?_singleton (show ',' ∉ "data:text/plain;base64".toList by decide) _
  have htrim : Blank.trim (Base64.standard.text data) = Base64.standard.text data :=
    Blank.trim_eq_self fun c hmem => (standardText_plain data c hmem).2.2
  have hbytes : Utf8.encode (Base64.standard.text data) = Base64.encode Base64.standard data :=
    Base64.encode_formatText (Base64.forall_mem_encode (by decide) (by decide) _)
  rw [protectionDataOfUri, String.toList_ofList, hsplit]
  simp only [htrim, hbytes, Base64.decode_encode Base64.isLawful_standard]
  rfl

/-- What the tag says about the stream. -/
def infoOf (system : ProtectionSystem) (data : Bytes) (hdcp22Required : Bool) : ProtectionInfo :=
  { systemUuid := system.uuid.toText
    method := "SAMPLE-AES-CTR"
    keyUri := String.ofList (dataUri data)
    hdcp22Required }

theorem helperFor_joined (hraw : (Helper.Kind.ofSystem system).isRaw = false)
    (hperm : entries.Perm (entriesOf system data)) (hdcp22Required : Bool) :
    helperFor .standard (String.ofList (joined entries)) hdcp22Required =
      if data.isEmpty then .error (.emptyData (Helper.Kind.ofSystem system).name)
      else ((Helper.ofInfo (.ofSystem system) (infoOf system data hdcp22Required)).read data).mapError
        (.refused (Helper.Kind.ofSystem system).name) := by
  have hkeyFormat : findAttribute? (String.ofList (joined entries)) "KEYFORMAT" =
      some (String.ofList (Uuid.scheme ++ system.uuid.text)) := by
    rw [findAttribute?_ofList, findFrom_keyFormat hperm, Option.map_some]
  have huri : findAttribute? (String.ofList (joined entries)) "URI" = some (String.ofList (dataUri data)) := by
    rw [findAttribute?_ofList, findFrom_uri hperm, Option.map_some]
  have hmethod : findAttribute? (String.ofList (joined entries)) "METHOD" = some "SAMPLE-AES-CTR" := by
    rw [findAttribute?_ofList, findFrom_method hperm, Option.map_some, String.ofList_toList]
  have hsystem : systemUuidOfKeyFormat (String.ofList (Uuid.scheme ++ system.uuid.text)) = system.uuid.toText := by
    rw [systemUuidOfKeyFormat, String.toList_ofList, Search.dropMarker?_append]
    rfl
  have hhelper := Helper.helperFor?_standard (show (infoOf system data hdcp22Required).systemUuid = _ from rfl)
  have hdata : protectionDataOfUri (String.ofList (dataUri data)) (Helper.Kind.ofSystem system).isRaw = .ok data := by
    rw [hraw]
    exact protectionDataOfUri_dataUri data
  unfold infoOf at hhelper
  simp only [helperFor, hkeyFormat, huri, hmethod, hsystem, Option.getD_some, hhelper]
  show (Except.mapError _ (protectionDataOfUri _ (Helper.Kind.ofSystem system).isRaw)).bind _ = _
  rw [hdata]
  rfl

/-- A tag gives a helper exactly when a fresh helper of its system takes the data, and then the helper is what the fresh one becomes. -/
theorem helper_of_key_tag (hsystem : system ≠ .verimatrix) (hperm : entries.Perm (entriesOf system data))
    (hdcp22Required : Bool) :
    let found := helperFor .standard (String.ofList (joined entries)) hdcp22Required
    let fresh := Helper.ofInfo (.ofSystem system) (infoOf system data hdcp22Required)
    (∀ info, (∃ helper, found = .ok helper) ↔ ((Helper.ofInfo (.ofSystem system) info).offer data).1 = true) ∧
    ∀ helper, found = .ok helper →
      helper = (fresh.offer data).2 ∧ helper.kind.system = system ∧ helper.contents.initData = data ∧
        helper.info.hdcp22Required = hdcp22Required := by
  intro found fresh
  have hraw : (Helper.Kind.ofSystem system).isRaw = false := by
    cases system with
    | verimatrix => exact absurd rfl hsystem
    | _ => rfl
  have hfound : found = _ := helperFor_joined hraw hperm hdcp22Required
  rcases Helper.read_cases system data with hrefused | ⟨taken, hinitData, hwrites⟩
  · -- No data at all gets a message of its own, but no helper takes it either.
    obtain ⟨fault, hfault⟩ : ∃ fault, found = .error fault := by
      obtain ⟨refusal, hread⟩ : ∃ refusal, fresh.read data = .error refusal := Helper.read_of_refused (hrefused _)
      rw [hfound]
      split
      · exact ⟨_, rfl⟩
      · exact ⟨_, congrArg (Except.mapError _) hread⟩
    rw [hfault]
    refine ⟨fun info => ⟨?_, fun htaken => ?_⟩, ?_⟩
    · rintro ⟨helper, ⟨⟩⟩
    · rw [Helper.offer_of_refused (hrefused info)] at htaken
      cases htaken
    · rintro helper ⟨⟩
  · have hsome : data ≠ [] := by
      rintro rfl
      obtain ⟨refusal, hnil⟩ := Helper.refused_nil system {}
      cases (hnil {}).symm.trans (hwrites {} {})
    have hafter : fresh.offer data = (true, { fresh with held := Helper.written taken system {} }) :=
      Helper.offer_of_writes (hwrites _)
    rw [hfound, if_neg (mt List.isEmpty_iff.mp hsome), Helper.read_of_writes (hwrites _)]
    refine ⟨fun info => ⟨fun _ => ?_, fun _ => ⟨_, rfl⟩⟩, ?_⟩
    · rw [Helper.offer_of_writes (hwrites info)]
    rintro helper ⟨⟩
    refine ⟨(congrArg Prod.snd hafter).symm, ?_, ?_, rfl⟩
    · show (Helper.Kind.ofSystem system).system = system
      cases system <;> rfl
    · calc
        _ = (Helper.contents ⟨.ofSystem system, _, taken⟩).initData :=
          congrArg Helper.Contents.initData (Helper.contents_written taken system _ _)
        _ = taken.initData := Helper.initData_contents system _ taken
        _ = data := hinitData

/-- Data can be written as the name of an attribute and `=`. That is no data of Widevine; an empty key id is. -/
theorem helper_of_key_tag_with_name_inside :
    let entries (data : Bytes) := [uriEntry data, methodEntry, keyFormatEntry .widevine, versionsEntry]
    let found (data : Bytes) := helperFor .standard (String.ofList (joined (entries data))) true
    uriEntry [0x51, 0x12] = "URI=\"data:text/plain;base64,URI=\"".toList ∧
      (¬∃ helper, found [0x51, 0x12] = .ok helper) ∧
      ∃ helper, found [0x12, 0] = .ok helper ∧ helper.contents.keyIds = [Uuid.zero] := by
  intro entries found
  have hsystem : ProtectionSystem.widevine ≠ .verimatrix := by decide
  have hperm (data : Bytes) : (entries data).Perm (entriesOf .widevine data) := .swap _ _ _
  have hrefused : ((Helper.ofInfo (.ofSystem .widevine) {}).offer [0x51, 0x12]).1 = false := by decide +kernel
  have htaken : ((Helper.ofInfo (.ofSystem .widevine) {}).offer [0x12, 0]).1 = true := by decide +kernel
  refine ⟨by decide, ?_, ?_⟩
  · rw [(helper_of_key_tag hsystem (hperm [0x51, 0x12]) true).1 {}, hrefused]
    exact Bool.false_ne_true
  · obtain ⟨hexists, hhelper⟩ := helper_of_key_tag hsystem (hperm [0x12, 0]) true
    obtain ⟨helper, hfound⟩ := (hexists {}).mpr htaken
    refine ⟨helper, hfound, ?_⟩
    rw [(hhelper helper hfound).1]
    decide +kernel

end ContentProtection.Hls
