import ContentProtection.PlayReady.Header
import ContentProtection.Proofs.Text.Base64
import ContentProtection.Proofs.Text.Blank
import ContentProtection.Proofs.Text.Utf16
import ContentProtection.Proofs.Xml.Writing
import Mathlib.Data.Bool.AllAny

/-!
# PlayReady headers read back

A header that lists key ids and may name a license server, as text and as the tree that the text is read as. What reading takes from it is what was written: key ids come back from mixed byte order and base64, in the place where the version has them.
-/

namespace ContentProtection.PlayReady

/-! ### Key ids -/

theorem swapGroups_append {first second third : Bytes} (hfirst : first.length = 4) (hsecond : second.length = 2)
    (hthird : third.length = 2) (rest : Bytes) :
    Uuid.swapGroups (first ++ (second ++ (third ++ rest))) =
      first.reverse ++ (second.reverse ++ (third.reverse ++ rest)) := by
  have hdrop₄ : (first ++ (second ++ (third ++ rest))).drop 4 = second ++ (third ++ rest) := List.drop_left' hfirst
  have hdrop₆ : (first ++ (second ++ (third ++ rest))).drop 6 = third ++ rest := by
    rw [show 6 = 4 + 2 from rfl, ← List.drop_drop, hdrop₄, List.drop_left' hsecond]
  have hdrop₈ : (first ++ (second ++ (third ++ rest))).drop 8 = rest := by
    rw [show 8 = 6 + 2 from rfl, ← List.drop_drop, hdrop₆, List.drop_left' hthird]
  rw [Uuid.swapGroups, hdrop₄, hdrop₆, hdrop₈, List.take_left' hfirst, List.take_left' hsecond,
    List.take_left' hthird, List.append_assoc, List.append_assoc]

theorem swapGroups_swapGroups {bytes : Bytes} (hlength : 8 ≤ bytes.length) :
    Uuid.swapGroups (Uuid.swapGroups bytes) = bytes := by
  have hfirst : (bytes.take 4).reverse.length = 4 := by
    rw [List.length_reverse, List.length_take]
    omega
  have hsecond : ((bytes.drop 4).take 2).reverse.length = 2 := by
    rw [List.length_reverse, List.length_take, List.length_drop]
    omega
  have hthird : ((bytes.drop 6).take 2).reverse.length = 2 := by
    rw [List.length_reverse, List.length_take, List.length_drop]
    omega
  have hparts : bytes.take 4 ++ ((bytes.drop 4).take 2 ++ ((bytes.drop 6).take 2 ++ bytes.drop 8)) = bytes := by
    rw [show 8 = 6 + 2 from rfl, ← List.drop_drop, List.take_append_drop, show 6 = 4 + 2 from rfl, ← List.drop_drop,
      List.take_append_drop, List.take_append_drop]
  rw [Uuid.swapGroups.eq_1 bytes, List.append_assoc, List.append_assoc, swapGroups_append hfirst hsecond hthird,
    List.reverse_reverse, List.reverse_reverse, List.reverse_reverse, hparts]

theorem length_toMixedEndian (keyId : Uuid) : keyId.toMixedEndian.length = 16 := by
  rw [Uuid.toMixedEndian, Uuid.length_swapGroups, keyId.length_eq]

theorem keyIdOfBytes_toMixedEndian (keyId : Uuid) : keyIdOfBytes keyId.toMixedEndian = keyId := by
  have hstored := length_toMixedEndian keyId
  have hswap : Uuid.swapGroups keyId.toMixedEndian = keyId.bytes :=
    swapGroups_swapGroups (by rw [keyId.length_eq]; decide)
  rw [keyIdOfBytes, Uuid.ofBytes?, dif_pos hstored]
  dsimp only
  rw [Uuid.mk.injEq]
  exact hswap

/-- A key id as headers write it. -/
def keyIdText (keyId : Uuid) : List Char := Base64.standard.text keyId.toMixedEndian

theorem keyIdText_plain (keyId : Uuid) :
    ∀ c ∈ keyIdText keyId, Xml.isPlain c = true ∧ Blank.isBlank c = false ∧ c.toNat < 128 :=
  List.forall_mem_map.mpr (Base64.forall_mem_encode (by decide) (by decide) _)

theorem le_length_keyIdText (keyId : Uuid) : 16 ≤ (keyIdText keyId).length :=
  length_toMixedEndian keyId ▸ Base64.length_le_length_formatText keyId.toMixedEndian

theorem readKeyId_keyIdText (keyId : Uuid) : readKeyId (keyIdText keyId) = .ok keyId := by
  have hblank : Blank.trim (keyIdText keyId) = keyIdText keyId :=
    Blank.trim_eq_self fun c hmem => (keyIdText_plain keyId c hmem).2.1
  have hbytes : Utf8.encode (keyIdText keyId) = Base64.encode Base64.standard keyId.toMixedEndian :=
    Base64.encode_formatText (Base64.forall_mem_encode (by decide) (by decide) _)
  rw [readKeyId, hblank, hbytes, Base64.decode_encode Base64.isLawful_standard]
  dsimp only
  rw [keyIdOfBytes_toMixedEndian]

/-! ### Texts -/

/-- The versions that are read. -/
def versions : List (List Char) := ["4.0.0.0".toList, "4.1.0.0".toList, "4.2.0.0".toList, "4.3.0.0".toList]

/-- A key id in the place where the version has it; with `short`, an element without text is one tag. -/
def writeKeyId (short : Bool) (version : List Char) (keyId : Uuid) : List Char :=
  if version = "4.0.0.0".toList then "<KID>".toList ++ (keyIdText keyId ++ "</KID>".toList)
  else "<KID VALUE=\"".toList ++ (keyIdText keyId ++ if short then "\"/>".toList else "\"></KID>".toList)

def writeLicenseUrl (url : List Char) : List Char := "<LA_URL>".toList ++ (url ++ "</LA_URL>".toList)

/-- The text of a header. -/
def writeHeader (short : Bool) (version : List Char) (keyIds : List Uuid) (licenseUrl? : Option (List Char)) :
    List Char :=
  "<WRMHEADER version=\"".toList ++ (version ++ ("\"><DATA>".toList ++ (keyIds.flatMap (writeKeyId short version) ++
    (licenseUrl?.elim [] writeLicenseUrl ++ "</DATA></WRMHEADER>".toList))))

/-- The element of a key id, up to its last character. -/
theorem writeKeyId_eq_append (short : Bool) (version : List Char) (keyId : Uuid) :
    ∃ text, writeKeyId short version keyId = text ++ ['>'] ∧ (∀ c ∈ text, c.toNat < 128) ∧ 26 ≤ text.length := by
  have htext : ∀ c ∈ keyIdText keyId, c.toNat < 128 := fun c hmem => (keyIdText_plain keyId c hmem).2.2
  have hlength := le_length_keyIdText keyId
  have hparts (start stop : List Char) (hascii : (start ++ stop).all (fun c => c.toNat < 128) = true)
      (hlong : 10 ≤ start.length + stop.length) :
      ∃ text, start ++ (keyIdText keyId ++ (stop ++ ['>'])) = text ++ ['>'] ∧ (∀ c ∈ text, c.toNat < 128) ∧
        26 ≤ text.length := by
    obtain ⟨hstart, hstop⟩ := List.forall_mem_append.mp (List.all_iff_forall_prop.mp hascii)
    refine ⟨start ++ (keyIdText keyId ++ stop), by simp only [List.append_assoc], ?_, ?_⟩
    · simp only [List.forall_mem_append]
      exact ⟨hstart, htext, hstop⟩
    · simp only [List.length_append]
      omega
  rw [writeKeyId]
  split
  · exact hparts "<KID>".toList "</KID".toList (by decide) (by decide)
  · split
    · exact hparts "<KID VALUE=\"".toList "\"/".toList (by decide) (by decide)
    · exact hparts "<KID VALUE=\"".toList "\"></KID".toList (by decide) (by decide)

/-- The first elements of a header are written in ASCII. -/
theorem writeHeader_eq_append (short : Bool) {version : List Char} (hversion : version ∈ versions) {keyIds : List Uuid}
    (hsome : keyIds ≠ []) (licenseUrl? : Option (List Char)) :
    ∃ text more, writeHeader short version keyIds licenseUrl? = text ++ '>' :: more ∧
      (∀ c ∈ text, c.toNat < 128) ∧ 60 ≤ text.length := by
  obtain ⟨keyId, keyIds, rfl⟩ := List.exists_cons_of_ne_nil hsome
  obtain ⟨text, hkeyId, htext, hlength⟩ := writeKeyId_eq_append short version keyId
  have hascii : ∀ version ∈ versions, version.all (fun c => c.toNat < 128) = true ∧ version.length = 7 := by decide
  obtain ⟨hcharacters, hseven⟩ := hascii version hversion
  have hstart : ∀ c ∈ "<WRMHEADER version=\"".toList, c.toNat < 128 := List.all_iff_forall_prop.mp (by decide)
  have hmiddle : ∀ c ∈ "\"><DATA>".toList, c.toNat < 128 := List.all_iff_forall_prop.mp (by decide)
  have hlengths : "<WRMHEADER version=\"".toList.length + "\"><DATA>".toList.length = 28 := by decide
  refine ⟨"<WRMHEADER version=\"".toList ++ (version ++ ("\"><DATA>".toList ++ text)),
    keyIds.flatMap (writeKeyId short version) ++
      (licenseUrl?.elim [] writeLicenseUrl ++ "</DATA></WRMHEADER>".toList), ?_, ?_, ?_⟩
  · unfold writeHeader
    simp only [List.flatMap_cons, hkeyId, List.append_assoc, List.cons_append, List.nil_append]
  · simp only [List.forall_mem_append]
    exact ⟨hstart, List.all_iff_forall_prop.mp hcharacters, hmiddle, htext⟩
  · simp only [List.length_append]
    omega

theorem writeHeader_endTag (short : Bool) (version : List Char) (keyIds : List Uuid)
    (licenseUrl? : Option (List Char)) :
    ∃ before, writeHeader short version keyIds licenseUrl? = before ++ "</WRMHEADER>".toList := by
  refine ⟨"<WRMHEADER version=\"".toList ++ (version ++ ("\"><DATA>".toList ++
    (keyIds.flatMap (writeKeyId short version) ++ (licenseUrl?.elim [] writeLicenseUrl ++ "</DATA>".toList)))), ?_⟩
  unfold writeHeader
  simp only [List.append_assoc]
  rfl

/-! ### Trees -/

def plainName (name : String) : Xml.QualifiedName := ⟨[], name.toList⟩

def keyIdNode (version : List Char) (keyId : Uuid) : Xml.Node :=
  if version = "4.0.0.0".toList then .element (plainName "KID") [] [.text (keyIdText keyId)]
  else .element (plainName "KID") [⟨plainName "VALUE", keyIdText keyId⟩] []

def licenseUrlNode (url : List Char) : Xml.Node := .element (plainName "LA_URL") [] [.text url]

def dataNodes (version : List Char) (keyIds : List Uuid) (licenseUrl? : Option (List Char)) : List Xml.Node :=
  keyIds.map (keyIdNode version) ++ licenseUrl?.toList.map licenseUrlNode

/-- What the text of a header is read as. -/
def headerNode (version : List Char) (keyIds : List Uuid) (licenseUrl? : Option (List Char)) : Xml.Node :=
  .element (plainName "WRMHEADER") [⟨plainName "version", version⟩]
    [.element (plainName "DATA") [] (dataNodes version keyIds licenseUrl?)]

theorem write_keyIdNode (short : Bool) (version : List Char) (keyId : Uuid) :
    (keyIdNode version keyId).write short = writeKeyId short version keyId := by
  have hstart : Xml.writeStartTag (plainName "KID") [] false = "<KID>".toList := by decide
  have hend : Xml.writeEndTag (plainName "KID") = "</KID>".toList := by decide
  rw [keyIdNode, writeKeyId]
  split
  · rw [Xml.write_element short _ _ (List.cons_ne_nil _ _), Xml.writeAll_singleton, hstart, hend]
    rfl
  · have hopen : '<' :: ((plainName "KID").localName ++ ' ' :: ((plainName "VALUE").localName ++ ['=', '"'])) =
        "<KID VALUE=\"".toList := by
      decide
    rw [Xml.Node.write, Xml.writeAll, hend, Xml.writeStartTag_singleton, Xml.writeStartTag_singleton, hopen]
    cases short <;> simp [Xml.tagEnd]

theorem write_licenseUrlNode (short : Bool) (url : List Char) :
    (licenseUrlNode url).write short = writeLicenseUrl url := by
  have hstart : Xml.writeStartTag (plainName "LA_URL") [] false = "<LA_URL>".toList := by decide
  have hend : Xml.writeEndTag (plainName "LA_URL") = "</LA_URL>".toList := by decide
  rw [licenseUrlNode, Xml.write_element short _ _ (List.cons_ne_nil _ _), Xml.writeAll_singleton, hstart, hend]
  rfl

theorem writeAll_dataNodes (short : Bool) (version : List Char) (keyIds : List Uuid)
    (licenseUrl? : Option (List Char)) :
    Xml.writeAll short (dataNodes version keyIds licenseUrl?) =
      keyIds.flatMap (writeKeyId short version) ++ licenseUrl?.elim [] writeLicenseUrl := by
  have hkeyIds : Xml.writeAll short (keyIds.map (keyIdNode version)) = keyIds.flatMap (writeKeyId short version) := by
    induction keyIds with
    | nil => rfl
    | cons keyId keyIds ih => rw [List.map_cons, Xml.writeAll, ih, write_keyIdNode, List.flatMap_cons]
  have hlicenseUrl : Xml.writeAll short (licenseUrl?.toList.map licenseUrlNode) =
      licenseUrl?.elim [] writeLicenseUrl := by
    cases licenseUrl? with
    | none => rfl
    | some url => exact (Xml.writeAll_singleton short (licenseUrlNode url)).trans (write_licenseUrlNode short url)
  rw [dataNodes, Xml.writeAll_append, hkeyIds, hlicenseUrl]

theorem write_headerNode (short : Bool) (version : List Char) {keyIds : List Uuid} (hsome : keyIds ≠ [])
    (licenseUrl? : Option (List Char)) :
    (headerNode version keyIds licenseUrl?).write short = writeHeader short version keyIds licenseUrl? := by
  have hdata : dataNodes version keyIds licenseUrl? ≠ [] := by
    rw [dataNodes]
    exact List.append_ne_nil_of_left_ne_nil (mt List.map_eq_nil_iff.mp hsome) _
  have hopen : '<' :: ((plainName "WRMHEADER").localName ++ ' ' :: ((plainName "version").localName ++ ['=', '"'])) =
      "<WRMHEADER version=\"".toList := by
    decide
  have hmiddle (rest : List Char) :
      '"' :: (Xml.tagEnd false ++ (Xml.writeStartTag (plainName "DATA") [] false ++ rest)) =
        "\"><DATA>".toList ++ rest := by
    rfl
  have hend : Xml.writeEndTag (plainName "DATA") ++ Xml.writeEndTag (plainName "WRMHEADER") =
      "</DATA></WRMHEADER>".toList := by
    decide
  rw [headerNode, Xml.write_element short _ _ (List.cons_ne_nil _ _), Xml.writeAll_singleton,
    Xml.write_element short _ _ hdata, writeAll_dataNodes, Xml.writeStartTag_singleton, hopen]
  simp only [List.append_assoc, List.cons_append]
  rw [hmiddle, hend]
  rfl

/-! ### The trees are plain -/

/-- Letters and digits, five marks, and whatever is beyond ASCII and not blank. -/
def isUrlCharacter (c : Char) : Bool :=
  if c.toNat < 128 then c.isAlphanum || [':', '/', '.', '_', '-'].contains c else Xml.isCharacter c && !Blank.isBlank c

theorem isPlain_of_isUrlCharacter {c : Char} (hc : isUrlCharacter c = true) :
    Xml.isPlain c = true ∧ Blank.isBlank c = false := by
  by_cases hascii : c.toNat < 128
  · have hall : ∀ c : Char, c.toNat < 128 → isUrlCharacter c = true →
        Xml.isPlain c = true ∧ Blank.isBlank c = false := Ascii.forall_ascii (by decide)
    exact hall c hascii hc
  · rw [isUrlCharacter, if_neg hascii, Bool.and_eq_true, Bool.not_eq_true'] at hc
    have hother : ∀ other : Char, other.toNat < 128 → c ≠ other := by
      rintro other hother rfl
      exact hascii hother
    refine ⟨Xml.isPlain_iff.mpr ⟨hc.1, ?_, hother _ (by decide), hother _ (by decide), hother _ (by decide),
      hother _ (by decide)⟩, hc.2⟩
    simp [Xml.isSpace, hother '\t' (by decide), hother '\n' (by decide), hother '\r' (by decide)]

theorem plainName_isPlain {name : String}
    (hcharacters : name.toList.all (fun c => Xml.isNameCharacter c = true ∧ c ≠ ':') = true)
    (hstart : name.toList.head?.any Xml.isNameStart = true) (hother : name.toList ≠ Xml.declarationPrefix) :
    (plainName name).IsPlain :=
  ⟨rfl, List.all_iff_forall_prop.mp hcharacters, (Option.any_eq_true _ _).mp hstart, hother⟩

theorem isPlain_textElement {name : Xml.QualifiedName} (hname : name.IsPlain) {text : List Char} (hsome : text ≠ [])
    (htext : ∀ c ∈ text, Xml.isPlain c = true) : (Xml.Node.element name [] [.text text]).IsPlain :=
  ⟨hname, nofun, List.nodup_nil, ⟨hsome, htext⟩, fun _ => nofun, trivial⟩

theorem isPlain_attributeElement {name attr : Xml.QualifiedName} (hname : name.IsPlain) (hattr : attr.IsPlain)
    {value : List Char} (hvalue : ∀ c ∈ value, Xml.isPlain c = true) {children : List Xml.Node}
    (hchildren : Xml.ArePlain children) : (Xml.Node.element name [⟨attr, value⟩] children).IsPlain :=
  ⟨hname, List.forall_mem_singleton.mpr ⟨hattr, hvalue⟩, List.nodup_singleton _, hchildren⟩

theorem isPlain_keyIdNode (version : List Char) (keyId : Uuid) : (keyIdNode version keyId).IsPlain := by
  have hname : (plainName "KID").IsPlain := plainName_isPlain (by decide) (by decide) (by decide)
  have hvalue : (plainName "VALUE").IsPlain := plainName_isPlain (by decide) (by decide) (by decide)
  have htext : ∀ c ∈ keyIdText keyId, Xml.isPlain c = true := fun c hmem => (keyIdText_plain keyId c hmem).1
  rw [keyIdNode]
  split
  · have hlength := le_length_keyIdText keyId
    exact isPlain_textElement hname (List.ne_nil_of_length_pos (by omega)) htext
  · exact isPlain_attributeElement hname hvalue htext trivial

variable {version : List Char} {keyIds : List Uuid} {licenseUrl? : Option (List Char)}

theorem isPlain_headerNode (hversion : version ∈ versions)
    (hurl : ∀ url ∈ licenseUrl?, url ≠ [] ∧ ∀ c ∈ url, isUrlCharacter c = true) :
    (headerNode version keyIds licenseUrl?).IsPlain := by
  have hroot : (plainName "WRMHEADER").IsPlain := plainName_isPlain (by decide) (by decide) (by decide)
  have hdata : (plainName "DATA").IsPlain := plainName_isPlain (by decide) (by decide) (by decide)
  have hserver : (plainName "LA_URL").IsPlain := plainName_isPlain (by decide) (by decide) (by decide)
  have hattribute : (plainName "version").IsPlain := plainName_isPlain (by decide) (by decide) (by decide)
  have hcharacters : ∀ version ∈ versions, version.all Xml.isPlain = true := by decide
  have hchildren : Xml.ArePlain (dataNodes version keyIds licenseUrl?) := by
    refine Xml.arePlain_of_elements fun node hmem => ?_
    rcases List.mem_append.mp hmem with hkeyId | hserverNode
    · obtain ⟨keyId, -, rfl⟩ := List.mem_map.mp hkeyId
      exact ⟨isPlain_keyIdNode version keyId, by rw [keyIdNode]; split <;> rfl⟩
    · obtain ⟨url, hgiven, rfl⟩ := List.mem_map.mp hserverNode
      obtain ⟨hsome, hplain⟩ := hurl url (Option.mem_toList.mp hgiven)
      exact ⟨isPlain_textElement hserver hsome fun c hc => (isPlain_of_isUrlCharacter (hplain c hc)).1, rfl⟩
  exact isPlain_attributeElement hroot hattribute (List.all_eq_true.mp (hcharacters version hversion))
    ⟨⟨hdata, nofun, List.nodup_nil, hchildren⟩, nofun, trivial⟩

/-! ### What is read from the tree -/

theorem descendantsOfAll_eq_flatMap (nodes : List Xml.Node) :
    Xml.Node.descendantsOfAll nodes = nodes.flatMap Xml.Node.descendants := by
  induction nodes with
  | nil => rfl
  | cons node nodes ih => rw [Xml.Node.descendantsOfAll, ih, List.flatMap_cons]

/-- Elements with other names than the outer two are among the key ids and the license server. -/
theorem elementsNamed_headerNode {name : List Char} (hroot : "WRMHEADER".toList ≠ name)
    (hdata : "DATA".toList ≠ name) :
    (headerNode version keyIds licenseUrl?).elementsNamed name =
      keyIds.flatMap (fun keyId => (keyIdNode version keyId).elementsNamed name) ++
        licenseUrl?.toList.flatMap fun url => (licenseUrlNode url).elementsNamed name := by
  have hinner : (headerNode version keyIds licenseUrl?).elementsNamed name =
      (Xml.Node.descendantsOfAll (dataNodes version keyIds licenseUrl?)).filter
        fun descendant => descendant.localName? = some name := by
    rw [Xml.Node.elementsNamed, headerNode, Xml.Node.descendants, List.filter_cons_of_neg,
      Xml.Node.descendantsOfAll, Xml.Node.descendantsOfAll, List.append_nil, Xml.Node.descendants,
      List.filter_cons_of_neg]
    · exact fun hfound => hdata (Option.some.inj (of_decide_eq_true hfound))
    · exact fun hfound => hroot (Option.some.inj (of_decide_eq_true hfound))
  rw [hinner, descendantsOfAll_eq_flatMap, List.filter_flatMap, dataNodes, List.flatMap_append, List.flatMap_map,
    List.flatMap_map]
  rfl

theorem elementsNamed_keyIdNode (keyId : Uuid) :
    (keyIdNode version keyId).elementsNamed "KID".toList = [keyIdNode version keyId] ∧
      (keyIdNode version keyId).elementsNamed "LA_URL".toList = [] := by
  rw [keyIdNode]
  split <;> exact ⟨rfl, rfl⟩

theorem elementsNamed_licenseUrlNode (url : List Char) :
    (licenseUrlNode url).elementsNamed "KID".toList = [] ∧
      (licenseUrlNode url).elementsNamed "LA_URL".toList = [licenseUrlNode url] :=
  ⟨rfl, rfl⟩

theorem elementsNamed_keyId :
    (headerNode version keyIds licenseUrl?).elementsNamed "KID".toList = keyIds.map (keyIdNode version) := by
  rw [elementsNamed_headerNode (by decide) (by decide),
    List.flatMap_congr fun keyId _ => (elementsNamed_keyIdNode keyId).1,
    List.flatMap_eq_nil_iff.mpr fun url _ => (elementsNamed_licenseUrlNode url).1, ← List.map_eq_flatMap,
    List.append_nil]

theorem elementsNamed_licenseUrl :
    (headerNode version keyIds licenseUrl?).elementsNamed "LA_URL".toList = licenseUrl?.toList.map licenseUrlNode := by
  rw [elementsNamed_headerNode (by decide) (by decide),
    List.flatMap_eq_nil_iff.mpr fun keyId _ => (elementsNamed_keyIdNode keyId).2,
    List.flatMap_congr fun url _ => (elementsNamed_licenseUrlNode url).2, ← List.map_eq_flatMap, List.nil_append]

theorem keyIdText?_keyIdNode (hversion : version ∈ versions) :
    ∃ form, Version.ofText? version = some form ∧
      ∀ keyId, form.keyIdText? (keyIdNode version keyId) = some (keyIdText keyId) := by
  by_cases hfirst : version = "4.0.0.0".toList
  · refine ⟨.elementText, by rw [Version.ofText?, if_pos hfirst], fun keyId => ?_⟩
    rw [keyIdNode, if_pos hfirst]
    rfl
  · refine ⟨.valueAttribute, ?_, fun keyId => ?_⟩
    · rw [Version.ofText?, if_neg hfirst, if_pos]
      exact List.contains_iff_mem.mpr ((List.mem_cons.mp hversion).resolve_left hfirst)
    · rw [keyIdNode, if_neg hfirst]
      rfl

theorem readKeyIds_headerNode (hversion : version ∈ versions) (hsome : keyIds ≠ []) :
    Header.readKeyIds version (headerNode version keyIds licenseUrl?) = .ok keyIds := by
  obtain ⟨form, hform, htexts⟩ := keyIdText?_keyIdNode hversion
  have hfound : (keyIds.map (keyIdNode version)).filterMap form.keyIdText? = keyIds.map keyIdText := by
    rw [List.filterMap_map, ← List.filterMap_eq_map]
    congr 1
    funext keyId
    exact htexts keyId
  have hread : (keyIds.map keyIdText).mapM readKeyId = .ok keyIds := by
    have hpure : readKeyId ∘ keyIdText = fun keyId => pure keyId := by
      funext keyId
      rw [Function.comp_apply, readKeyId_keyIdText]
      rfl
    rw [List.mapM_map, hpure, List.mapM_pure, List.map_id']
    rfl
  rw [Header.readKeyIds, elementsNamed_keyId, hform]
  split
  · rename_i hnone
    exact absurd (List.map_eq_nil_iff.mp hnone) hsome
  · rename_i hother
    cases hother
  · rename_i hsame _
    cases hsame
    rw [hfound, hread]
    show (if keyIds.isEmpty = true then _ else _ : Except Fault (List Uuid)) = _
    rw [if_neg (mt List.isEmpty_iff.mp hsome)]

theorem licenseUrl?_headerNode (hurl : ∀ url ∈ licenseUrl?, url ≠ [] ∧ ∀ c ∈ url, isUrlCharacter c = true) :
    Header.licenseUrl? (headerNode version keyIds licenseUrl?) = licenseUrl?.map String.ofList := by
  rw [Header.licenseUrl?, elementsNamed_licenseUrl]
  cases licenseUrl? with
  | none => rfl
  | some url =>
    have htrim : Blank.trim url = url :=
      Blank.trim_eq_self fun c hmem => (isPlain_of_isUrlCharacter ((hurl url rfl).2 c hmem)).2
    show some (String.ofList (Blank.trim url)) = some (String.ofList url)
    rw [htrim]

theorem ofText_writeHeader (short : Bool) (hversion : version ∈ versions) (hsome : keyIds ≠ [])
    (hurl : ∀ url ∈ licenseUrl?, url ≠ [] ∧ ∀ c ∈ url, isUrlCharacter c = true) :
    Header.ofText (writeHeader short version keyIds licenseUrl?) = .ok ⟨keyIds, licenseUrl?.map String.ofList⟩ := by
  have hparse : Xml.parse? (writeHeader short version keyIds licenseUrl?) =
      some (headerNode version keyIds licenseUrl?) := by
    rw [← write_headerNode short version hsome]
    exact Xml.parse?_write short (isPlain_headerNode hversion hurl)
  have hattribute : (headerNode version keyIds licenseUrl?).attribute? "version".toList = some version := rfl
  rw [Header.ofText, hparse]
  dsimp only
  rw [Header.ofRoot, hattribute]
  dsimp only
  rw [readKeyIds_headerNode hversion hsome, licenseUrl?_headerNode hurl]
  rfl

end ContentProtection.PlayReady
