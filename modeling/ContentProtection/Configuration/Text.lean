import ContentProtection.Configuration.Basic
import ContentProtection.Text.Blank
import ContentProtection.Yaml.Content
import ContentProtection.Yaml.Value

/-!
# Configurations as text

A configuration is a YAML mapping. A field may be left out and then has its default value; keys that name no field are passed over. Written out, every field is there, in a fixed order.
-/

namespace ContentProtection.Configuration

open Yaml

/-! ### Reading -/

def platformOfNode? (document : Document) (node : Node) : Option OutputLink := do
  let entries ← document.entries? node
  let sourceUhd ← field? entries "source_uhd" ({} : OutputLink).sourceUhd document.bool?
  let hdcp22 ← field? entries "hdcp_2_2" ({} : OutputLink).hdcp22 document.bool?
  pure { sourceUhd, hdcp22 }

def namesOfNode? (document : Document) (node : Node) : Option (List String) := do
  let items ← document.items? node
  items.mapM fun item => (document.text? item).map String.ofList

def terminationOfNode? (document : Document) (node : Node) : Option Termination.Settings := do
  let entries ← document.entries? node
  let helperProcesses ←
    field? entries "helper_processes" ({} : Termination.Settings).helperProcesses (namesOfNode? document)
  let flushDelayMs ←
    field? entries "flush_delay_ms" ({} : Termination.Settings).flushDelayMs document.unsigned?
  pure { helperProcesses, flushDelayMs }

def backendOfNode? (document : Document) (node : Node) : Option Backend :=
  (document.name? node).bind Backend.ofName?

def ofNode? (document : Document) (node : Node) : Option Configuration := do
  let standard : Configuration := {}
  let entries ← document.entries? node
  let keyRequestTimeoutMs ← field? entries "key_request_timeout_ms" standard.keyRequestTimeoutMs document.unsigned?
  let licenseTimeoutMs ← field? entries "license_timeout_ms" standard.licenseTimeoutMs document.unsigned?
  let outputProtection ← field? entries "output_protection" standard.outputProtection document.bool?
  let backend ← field? entries "backend" standard.backend (backendOfNode? document)
  let nativeClearKey ← field? entries "native_clear_key" standard.nativeClearKey document.bool?
  let platform ← field? entries "platform" standard.platform (platformOfNode? document)
  let termination ← field? entries "fatal" standard.termination (terminationOfNode? document)
  pure
    { keyRequestTimeoutMs, licenseTimeoutMs, outputProtection, backend, nativeClearKey, platform, termination }

/-- A document without a root is an empty mapping. -/
def ofDocument? (document : Document) : Option Configuration :=
  match document.root? with
  | some root => ofNode? document root
  | none => some {}

/-- A text of nothing but blank characters is the standard configuration, also where a document may not hold them. -/
def ofText? (text : List Char) : Option Configuration :=
  if (Blank.trim text).isEmpty then some {} else (Document.ofText? text).bind ofDocument?

/-! ### Writing -/

def boolContent (value : Bool) : Content := .plain (if value then "true" else "false").toList

def unsignedContent (value : UInt64) : Content := .plain (Nat.toDigits 10 value.toNat)

def platformContent (platform : OutputLink) : List (String × Content) :=
  [("source_uhd", boolContent platform.sourceUhd), ("hdcp_2_2", boolContent platform.hdcp22)]

def terminationContent (termination : Termination.Settings) : List (String × Content) :=
  [("helper_processes", .texts (termination.helperProcesses.map String.toList)),
    ("flush_delay_ms", unsignedContent termination.flushDelayMs)]

def content (configuration : Configuration) : List (String × Content) :=
  [("key_request_timeout_ms", unsignedContent configuration.keyRequestTimeoutMs),
    ("license_timeout_ms", unsignedContent configuration.licenseTimeoutMs),
    ("output_protection", boolContent configuration.outputProtection),
    ("backend", .text configuration.backend.name.toList),
    ("native_clear_key", boolContent configuration.nativeClearKey),
    ("platform", .mapping (platformContent configuration.platform)),
    ("fatal", .mapping (terminationContent configuration.termination))]

def toText (configuration : Configuration) : List Char := Content.writeDocument configuration.content

end ContentProtection.Configuration
