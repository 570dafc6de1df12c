import ContentProtection.Configuration.File
import ContentProtection.Proofs.Text.Blank
import ContentProtection.Proofs.Yaml.Document
import ContentProtection.Proofs.Yaml.Value

/-!
# Configurations come back from their text

A configuration that is written and read is the same, as long as the names of its helper processes are of printable ASCII characters. Without some of its keys, and in any order of the others, it is read with the defaults of exactly the fields that are missing.
-/

namespace ContentProtection.Configuration

open Yaml

/-! ### Values -/

section Values

variable (document : Document)

theorem bool?_boolContent (value : Bool) : document.bool? (boolContent value).toNode = some value := by
  cases value <;> rfl

theorem unsigned?_unsignedContent (value : UInt64) :
    document.unsigned? (unsignedContent value).toNode = some value := by
  have hvalue : document.unsigned? (unsignedContent value).toNode =
      ((Spelling.natural? (Nat.toDigits 10 value.toNat)).filter (· < UInt64.size)).map UInt64.ofNat := rfl
  rw [hvalue, Spelling.natural?_toDigits, Option.filter_some, if_pos (by simpa using value.toNat_lt_size),
    Option.map_some, UInt64.ofNat_toNat]

theorem backendOfNode?_name (backend : Backend) :
    backendOfNode? document (Content.text backend.name.toList).toNode = some backend := by
  cases backend <;> rfl

theorem namesOfNode?_texts (names : List String) :
    namesOfNode? document (Content.texts (names.map String.toList)).toNode = some names := by
  have hitems : ((names.map String.toList).map Content.textNode).mapM
      (fun item => (document.text? item).map String.ofList) = some names := by
    induction names with
    | nil => rfl
    | cons name names ih =>
      rw [List.map_cons, List.map_cons, List.mapM_cons, ih]
      change (some (String.ofList name.toList)).bind _ = _
      rw [String.ofList_toList]
      rfl
  exact hitems

end Values

/-! ### Removed keys -/

/-- The keys taken out of the mapping of a configuration, and out of the two mappings within it. -/
structure Removal where
  fields : List String := []
  platform : List String := []
  termination : List String := []

def platformWithout (removed : List String) (platform : OutputLink) : OutputLink where
  sourceUhd := unlessRemoved removed "source_uhd" platform.sourceUhd ({} : OutputLink).sourceUhd
  hdcp22 := unlessRemoved removed "hdcp_2_2" platform.hdcp22 ({} : OutputLink).hdcp22

def terminationWithout (removed : List String) (termination : Termination.Settings) : Termination.Settings where
  helperProcesses :=
    unlessRemoved removed "helper_processes" termination.helperProcesses ({} : Termination.Settings).helperProcesses
  flushDelayMs :=
    unlessRemoved removed "flush_delay_ms" termination.flushDelayMs ({} : Termination.Settings).flushDelayMs

/-- The configuration with every field whose key is removed at its default. -/
def without (configuration : Configuration) (removal : Removal) : Configuration :=
  let standard : Configuration := {}
  { keyRequestTimeoutMs :=
      unlessRemoved removal.fields "key_request_timeout_ms" configuration.keyRequestTimeoutMs
        standard.keyRequestTimeoutMs
    licenseTimeoutMs :=
      unlessRemoved removal.fields "license_timeout_ms" configuration.licenseTimeoutMs standard.licenseTimeoutMs
    outputProtection :=
      unlessRemoved removal.fields "output_protection" configuration.outputProtection standard.outputProtection
    backend := unlessRemoved removal.fields "backend" configuration.backend standard.backend
    nativeClearKey :=
      unlessRemoved removal.fields "native_clear_key" configuration.nativeClearKey standard.nativeClearKey
    platform :=
      unlessRemoved removal.fields "platform" (platformWithout removal.platform configuration.platform)
        standard.platform
    termination :=
      unlessRemoved removal.fields "fatal" (terminationWithout removal.termination configuration.termination)
        standard.termination }

/-- The content of a configuration with other entries in the two mappings within it. -/
def contentWith (configuration : Configuration) (platform termination : List (String × Content)) :
    List (String × Content) :=
  configuration.content.map fun (key, content) =>
    (key, if key = "platform" then .mapping platform else if key = "fatal" then .mapping termination else content)

/-! ### Reading -/

section Reading

variable (document : Document)

theorem platformOfNode?_left {platform : OutputLink} {removed : List String} {left : List (String × Content)}
    (hleft : IsLeft (platformContent platform) removed left) :
    platformOfNode? document (Content.mapping left).toNode = some (platformWithout removed platform) := by
  have hkeys : ((platformContent platform).map Prod.fst).Nodup := by
    change ["source_uhd", "hdcp_2_2"].Nodup
    decide
  have hsource := hleft.field? hkeys (.head _) (bool?_boolContent document platform.sourceUhd)
  have hhdcp := hleft.field? hkeys (.tail _ (.head _)) (bool?_boolContent document platform.hdcp22)
  rw [platformOfNode?, document.entries?_mapping, Option.bind_eq_bind, Option.bind_some, hsource, hhdcp]
  rfl

theorem terminationOfNode?_left {termination : Termination.Settings} {removed : List String}
    {left : List (String × Content)} (hleft : IsLeft (terminationContent termination) removed left) :
    terminationOfNode? document (Content.mapping left).toNode = some (terminationWithout removed termination) := by
  have hkeys : ((terminationContent termination).map Prod.fst).Nodup := by
    change ["helper_processes", "flush_delay_ms"].Nodup
    decide
  have hnames := hleft.field? hkeys (.head _) (namesOfNode?_texts document termination.helperProcesses)
  have hdelay := hleft.field? hkeys (.tail _ (.head _)) (unsigned?_unsignedContent document termination.flushDelayMs)
  rw [terminationOfNode?, document.entries?_mapping, Option.bind_eq_bind, Option.bind_some, hnames, hdelay]
  rfl

theorem ofNode?_left {configuration : Configuration} {removal : Removal}
    {platform termination left : List (String × Content)}
    (hplatform : IsLeft (platformContent configuration.platform) removal.platform platform)
    (htermination : IsLeft (terminationContent configuration.termination) removal.termination termination)
    (hleft : IsLeft (configuration.contentWith platform termination) removal.fields left) :
    ofNode? document (Content.mapping left).toNode = some (configuration.without removal) := by
  have hkeys : ((configuration.contentWith platform termination).map Prod.fst).Nodup := by
    change ["key_request_timeout_ms", "license_timeout_ms", "output_protection", "backend", "native_clear_key",
      "platform", "fatal"].Nodup
    decide
  have hmem (index : Nat) {entry : String × Content}
      (hentry : (configuration.contentWith platform termination)[index]? = some entry) :
      entry ∈ configuration.contentWith platform termination := List.mem_of_getElem? hentry
  have hrequest :=
    hleft.field? hkeys (hmem 0 rfl) (unsigned?_unsignedContent document configuration.keyRequestTimeoutMs)
  have hlicense := hleft.field? hkeys (hmem 1 rfl) (unsigned?_unsignedContent document configuration.licenseTimeoutMs)
  have hprotection := hleft.field? hkeys (hmem 2 rfl) (bool?_boolContent document configuration.outputProtection)
  have hbackend := hleft.field? hkeys (hmem 3 rfl) (backendOfNode?_name document configuration.backend)
  have hclearKey := hleft.field? hkeys (hmem 4 rfl) (bool?_boolContent document configuration.nativeClearKey)
  have hlink := hleft.field? hkeys (hmem 5 rfl) (platformOfNode?_left document hplatform)
  have hsettings := hleft.field? hkeys (hmem 6 rfl) (terminationOfNode?_left document htermination)
  rw [ofNode?, document.entries?_mapping, Option.bind_eq_bind, Option.bind_some, hrequest, hlicense, hprotection,
    hbackend, hclearKey, hlink, hsettings]
  rfl

end Reading

/-! ### Writing -/

theorem isName_toDigits (n : Nat) : IsName (Nat.toDigits 10 n) := by
  refine ⟨Nat.toDigits_ne_nil, fun c hc => .inl ?_⟩
  have hdigit : c.isDigit = true := Nat.isDigit_of_mem_toDigits (by decide) (by decide) hc
  rw [Char.isAlphanum, hdigit, Bool.or_true]

theorem isWritable_boolContent (value : Bool) : (boolContent value).IsWritable := by
  cases value
  · exact (by decide : IsName "false".toList)
  · exact (by decide : IsName "true".toList)

theorem areWritable_platformContent (platform : OutputLink) : Content.AreWritable (platformContent platform) :=
  ⟨by decide, isWritable_boolContent _, by decide, isWritable_boolContent _, trivial⟩

theorem areWritable_terminationContent {termination : Termination.Settings}
    (hnames : ∀ name ∈ termination.helperProcesses, IsPrintableAscii name.toList) :
    Content.AreWritable (terminationContent termination) :=
  ⟨by decide, List.forall_mem_map.mpr hnames, by decide, isName_toDigits _, trivial⟩

theorem areWritable_contentWith (configuration : Configuration) {platform termination : List (String × Content)}
    (hplatform : Content.AreWritable platform) (htermination : Content.AreWritable termination) :
    Content.AreWritable (configuration.contentWith platform termination) := by
  have hbackend : IsPrintableAscii configuration.backend.name.toList := by cases configuration.backend <;> decide
  exact ⟨by decide, isName_toDigits _, by decide, isName_toDigits _, by decide, isWritable_boolContent _, by decide,
    hbackend, by decide, isWritable_boolContent _, by decide, hplatform, by decide, htermination, trivial⟩

theorem areWritable_left {entries left : List (String × Content)} {removed : List String}
    (hleft : IsLeft entries removed left) (hentries : Content.AreWritable entries) : Content.AreWritable left :=
  Content.areWritable_iff.mpr fun entry hmem => Content.areWritable_iff.mp hentries entry (hleft.mem hmem)

/-- Entries are never written as blanks only, which would stand for the standard configuration. -/
theorem trim_writeDocument (entries : List (String × Content)) :
    (Blank.trim (Content.writeDocument entries)).isEmpty = false := by
  have hsome : Blank.trim (Content.writeDocument entries) ≠ [] := by
    cases entries with
    | nil => exact Blank.trim_ne_nil (c := '\x7b') (by decide) (by decide)
    | cons entry entries =>
      refine Blank.trim_ne_nil (c := ':') ?_ (by decide)
      simp [Content.writeDocument, Content.writeEntries]
  simpa using hsome

/-- Printable names come back whatever else they could be taken for; what is removed takes its default, in whatever order the rest stands. -/
theorem written_read_back_with_defaults (configuration : Configuration)
    (hnames : ∀ name ∈ configuration.termination.helperProcesses, IsPrintableAscii name.toList) :
    ofText configuration.toText = .ok configuration ∧
      ∀ (removal : Removal) (platform termination left : List (String × Content)),
        IsLeft (platformContent configuration.platform) removal.platform platform →
        IsLeft (terminationContent configuration.termination) removal.termination termination →
        IsLeft (configuration.contentWith platform termination) removal.fields left →
          ofText (Content.writeDocument left) = .ok (configuration.without removal) := by
  have hread (removal : Removal) (platform termination left : List (String × Content))
      (hplatform : IsLeft (platformContent configuration.platform) removal.platform platform)
      (htermination : IsLeft (terminationContent configuration.termination) removal.termination termination)
      (hleft : IsLeft (configuration.contentWith platform termination) removal.fields left) :
      ofText (Content.writeDocument left) = .ok (configuration.without removal) := by
    have hwritable : Content.AreWritable left :=
      areWritable_left hleft (areWritable_contentWith configuration
        (areWritable_left hplatform (areWritable_platformContent _))
        (areWritable_left htermination (areWritable_terminationContent hnames)))
    have hfound := ofNode?_left ⟨some (Content.mapping left).toNode⟩ hplatform htermination hleft
    rw [ofText, ofText?, trim_writeDocument, if_neg Bool.false_ne_true, Document.ofText?_writeDocument hwritable,
      Option.bind_some, ofDocument?]
    dsimp only
    rw [hfound]
  have hall (entries : List (String × Content)) : IsLeft entries [] entries := by
    rw [IsLeft, List.filter_eq_self.mpr fun _ _ => by simp]
  have hwhole := hread {} _ _ configuration.content (hall _) (hall _) (hall _)
  have hsame : configuration.without {} = configuration := by
    simp [without, platformWithout, terminationWithout, unlessRemoved]
  rw [hsame] at hwhole
  exact ⟨hwhole, hread⟩

/-- With names that could be taken for null, a number, nothing, a comment and an item with a key. -/
def withOddNames : Configuration where
  keyRequestTimeoutMs := 18446744073709551615
  licenseTimeoutMs := 0
  outputProtection := false
  backend := .unprotected
  platform := { sourceUhd := true }
  termination :=
    { helperProcesses := ["null", "12", "", "it\x27s #1", "- a: b", "cdm"]
      flushDelayMs := 7 }

theorem odd_names_read_back :
    ofText withOddNames.toText = .ok withOddNames ∧
      ofText
        ("fatal:\n  helper_processes:\n".toList ++ "  - \x27null\x27\n  - \x2712\x27\n  - \x27\x27\n".toList
          ++ "  - \x27it\x27\x27s #1\x27\n  - \x27- a: b\x27\n  - cdm\n".toList
          ++ "platform: \x7b\x7d\nkey_request_timeout_ms: 18446744073709551615\n".toList) =
        .ok { withOddNames with
          licenseTimeoutMs := 5000
          outputProtection := true
          backend := .native
          platform := {}
          termination := { withOddNames.termination with flushDelayMs := 1000 } } := by
  have hnames : ∀ name ∈ withOddNames.termination.helperProcesses, IsPrintableAscii name.toList := by decide
  obtain ⟨hwhole, hread⟩ := written_read_back_with_defaults withOddNames hnames
  have hpart := hread
    { fields := ["license_timeout_ms", "output_protection", "backend", "native_clear_key"]
      platform := ["source_uhd", "hdcp_2_2"]
      termination := ["flush_delay_ms"] } [] _ _ (.refl _) (.refl _) (List.reverse_perm _)
  refine ⟨hwhole, (congrArg ofText ?_).trans (hpart.trans ?_)⟩
  · decide +kernel
  · rfl

end ContentProtection.Configuration
