import ContentProtection.Proofs.ClearKey.Decryption
import ContentProtection.Proofs.ClearKey.Exchange
import ContentProtection.Proofs.ClearKey.KeySet
import ContentProtection.Proofs.Json.Writing
import ContentProtection.Proofs.Pssh.KeyIds

/-!
# From key ids to plaintext

A clear key stream from end to end. A helper that has read a box with key ids has its session ask for the first of them. When the license is a key set with a key for this key id, the session becomes ready, and it takes off the encryption under this key.
-/

namespace ContentProtection.ClearKey

open ContentProtection.Session (KeyRequest Reply collaborators)
open Json (TextWritten)
open Keystream (AddedAt)

/-! ### The request -/

/-- A request for one key, to be used in this session only. -/
def AsksFor (keyId : Uuid) (request : Bytes) : Prop :=
  ∃ (json : Json.Value) (id type : Bytes), json.Written request ∧
    json.HasMembers [("kids".toList, .array [.string id]), ("type".toList, .string type)] ∧
    TextWritten (Base64.text keyId.bytes) id ∧ TextWritten "temporary".toList type

theorem textWritten_base64 (bytes : Bytes) :
    TextWritten (Base64.text bytes) (Base64.encode Base64.urlSafe bytes) := by
  rw [← Base64.encode_text]
  exact Json.textWritten_encode
    (List.all_eq_true.mpr (List.forall_mem_map.mpr (Base64.forall_mem_encode (by decide) (by decide) bytes)))

theorem asksFor_requestFor (keyId : Uuid) : AsksFor keyId (requestFor keyId) := by
  have hid := textWritten_base64 keyId.bytes
  have hkids : TextWritten "kids".toList (Utf8.encode "kids".toList) := Json.textWritten_encode (by decide)
  have htype : TextWritten "type".toList (Utf8.encode "type".toList) := Json.textWritten_encode (by decide)
  have htemporary : TextWritten "temporary".toList (Utf8.encode "temporary".toList) :=
    Json.textWritten_encode (by decide)
  refine ⟨_, _, _, Json.written_render ?_, ⟨_, rfl, ?_⟩, hid, htemporary⟩
  · exact ⟨hkids.quotable, ⟨hid.quotable, trivial⟩, htype.quotable, htemporary.quotable, trivial⟩
  · exact .cons ⟨hkids, rfl⟩ (.cons ⟨htype, rfl⟩ .nil)

/-! ### The license -/

theorem Session.process_of_offers {session : Session} {keyId : Uuid} {set : KeySet} {license : LicenseData}
    {contentKey : ContentKey} (hkeyId : session.keyId = some keyId) (hwritten : set.WrittenIn license.bytes)
    (hidentified : set.Identified) (hoffers : set.Offers keyId contentKey) :
    session.process (some license) =
      (.ok (),
        { session with key := some contentKey, state := .ready, stateChanged := session.stateChanged.signal }) := by
  apply process_of_select?
  rw [hwritten.parse?, Option.bind_some, hkeyId, hoffers.select? hidentified]

/-! ### Decrypting -/

/-- Whether the session takes off the encryption of whole payloads under a key. -/
def Session.Restores (session : Session) (keyId : Uuid) (contentKey : ContentKey) : Prop :=
  ∀ (encryption : Sample.Encryption) (plaintext ciphertext : Bytes), encryption.scheme = .cenc →
    encryption.subsamples = [] → encryption.iv.length = 8 ∨ encryption.iv.length = 16 →
    encryption.keyId = [] ∨ encryption.keyId = keyId.bytes →
    AddedAt (Keystream.byteAt contentKey.bytes encryption.iv) (List.range plaintext.length) plaintext ciphertext →
    session.decrypt encryption ciphertext = (.ok (), plaintext)

theorem Session.restores {session : Session} {keyId : Uuid} {contentKey : ContentKey}
    (hkeyId : session.keyId = some keyId) (hkey : session.key = some contentKey)
    (hopen : session.violatesOutput = false) : session.Restores keyId contentKey := by
  intro encryption plaintext ciphertext hscheme hwhole hiv hnamed hencrypted
  have hnamed' : ∀ other, session.keyId = some other → encryption.keyId = [] ∨ encryption.keyId = other.bytes := by
    intro other hother
    rwa [Option.some.inj (hkeyId.symm.trans hother)] at hnamed
  have hfits : Sample.covered encryption.subsamples ≤ ciphertext.length := by
    rw [hwhole]
    exact Nat.zero_le _
  obtain ⟨decrypted, hdecrypt, hadded⟩ := decryptFrom_of_covered contentKey encryption.iv hfits
  rw [Sample.Encryption.encryptedPositions, if_pos hwhole, hencrypted.length_eq] at hadded
  rw [decrypt_eq_decryptFrom hkey hopen hscheme hnamed' hiv, hdecrypt, hencrypted.twice hadded]

/-! ### From end to end -/

/-- How a session comes to decrypt with the key for a key id. It is made, it asks for a license and goes on with the reply. -/
structure KeyExchange (context : Context) (helper : Helper) (keyId : Uuid) (made pending : Session)
    (request : KeyRequest)
    (resume : Session → Reply (.fetchLicense request) → Interaction collaborators Session (Except Error Unit)) :
    Prop where
  created : context.createSession helper = .ok (.clearKey made)
  asks : context.acquireLicense helper made = .ask pending (.fetchLicense request) resume
  challenge : AsksFor keyId request.challenge.bytes
  url : request.url = helper.contents.licenseUrl.getD ""
  /-- What the session does with a key set, whatever becomes of the output meanwhile. -/
  restores : ∀ (set : KeySet) (license : LicenseData) (contentKey : ContentKey), set.WrittenIn license.bytes →
    set.Identified → set.Offers keyId contentKey →
    ∃ ready, resume pending (.ok (some license)) = .done ready (.ok ()) ∧ ready.state = .ready ∧
      ∀ outputProtection outputLink, ({ ready with outputProtection, outputLink } : Session).violatesOutput = false →
        ({ ready with outputProtection, outputLink } : Session).Restores keyId contentKey

theorem keyExchange {context : Context} {helper : Helper} {keyId : Uuid}
    (hserves : context.servesClearKey helper = true) (hkeyId : helper.contents.keyIds.head? = some keyId) :
    ∃ made pending request resume, KeyExchange context helper keyId made pending request resume := by
  have hfor : (context.clearKeySession helper).keyIdFor? helper.contents.initData = some keyId := by
    show helper.contents.keyIds.head?.or _ = some keyId
    rw [hkeyId]
    rfl
  have hprotected : context.configuration.backend ≠ .unprotected := by
    intro hunprotected
    rw [Context.servesClearKey, hunprotected] at hserves
    cases hserves
  refine ⟨context.clearKeySession helper, (context.clearKeySession helper).asking keyId, keyRequestFor helper keyId,
    fun session reply => Interaction.done (I := collaborators) (answered session reply).2 (answered session reply).1,
    ?_, ?_, asksFor_requestFor keyId, rfl, ?_⟩
  · rw [Context.createSession, if_neg hprotected, if_pos hserves]
  · rw [acquireLicense_of_keyId hfor, exchange_eq]
  · intro set license contentKey hwritten hidentified hoffers
    let asking := (context.clearKeySession helper).asking keyId
    have hprocess := asking.process_of_offers rfl hwritten hidentified hoffers
    refine ⟨{ asking with key := some contentKey, state := .ready, stateChanged := asking.stateChanged.signal }, ?_,
      rfl, fun outputProtection outputLink hopen => Session.restores rfl rfl hopen⟩
    rw [answered, hprocess]

/-- The first key id of a box leads to the plaintext of its stream. The box is read if its key ids can be counted, and whenever it is read, the session decrypts with the key that the license has for the first key id. -/
theorem plaintext_restored (context : Context) (fresh : Helper) (keyId : Uuid) (others : List Uuid)
    (hkind : fresh.kind = .ofSystem .clearKey)
    (hbackend : context.configuration.backend = .clearKey ∨
      context.configuration.backend = .native ∧ context.configuration.nativeClearKey = true) :
    ((keyId :: others).length < 2 ^ 32 →
        ∃ helper, fresh.read (Pssh.ofKeyIds .clearKey (keyId :: others)).toBytes = .ok helper) ∧
      ∀ helper, fresh.read (Pssh.ofKeyIds .clearKey (keyId :: others)).toBytes = .ok helper →
        ∃ made pending request resume, KeyExchange context helper keyId made pending request resume := by
  obtain ⟨kind, info, held⟩ := fresh
  subst hkind
  constructor
  · intro hcount
    have hsome : Pssh.kept (keyId :: others) ≠ [] := by
      rw [Pssh.kept_of_length_lt hcount]
      exact List.cons_ne_nil _ _
    exact ⟨⟨.ofSystem .clearKey, info, _⟩, Helper.read_of_writes (Helper.writes_ofKeyIds info hsome)⟩
  · intro helper hhelper
    by_cases hnone : Pssh.kept (keyId :: others) = []
    · obtain ⟨refusal, hrefused⟩ : ∃ refusal, Helper.read ⟨.ofSystem .clearKey, info, held⟩ _ = .error refusal :=
        Helper.read_of_refused (Helper.refused_ofKeyIds info hnone)
      cases hrefused.symm.trans hhelper
    · have hread : Helper.read ⟨.ofSystem .clearKey, info, held⟩ _ = .ok ⟨.ofSystem .clearKey, info, _⟩ :=
        Helper.read_of_writes (Helper.writes_ofKeyIds info hnone)
      obtain rfl := Except.ok.inj (hread.symm.trans hhelper)
      refine keyExchange ?_ (Pssh.head?_kept hnone)
      rcases hbackend with hclear | ⟨hnative, henabled⟩
      · rw [Context.servesClearKey, hclear]
      · simp only [Context.servesClearKey, hnative, henabled]
        rfl

/-! ### A key behind another one -/

def keyIdOfStream : Uuid := ⟨List.replicate 16 17, rfl⟩

def keyOfStream : ContentKey := ⟨List.replicate 16 42, rfl⟩

def helperOfStream : Helper := Helper.ofInfo (.ofSystem .clearKey) { keyUri := "https://example.com" }

def fieldsOfOther : List (List Char × List Char) :=
  [("kty".toList, "RSA".toList), ("n".toList, "AQAB".toList), ("k".toList, [])]

def fieldsOfStream : List (List Char × List Char) :=
  [("k".toList, Base64.text keyOfStream.bytes), ("kid".toList, Base64.text keyIdOfStream.bytes),
    ("kty".toList, "oct".toList)]

def otherKey : WebKey := ⟨"RSA".toList, [], none⟩

def streamKey : WebKey := ⟨"oct".toList, Base64.text keyOfStream.bytes, some (Base64.text keyIdOfStream.bytes)⟩

def jsonOfStream : Json.Value :=
  .object [(Utf8.encode "keys".toList, .array [.ofTexts fieldsOfOther, .ofTexts fieldsOfStream])]

theorem otherKey_toldBy : otherKey.ToldBy (.ofTexts fieldsOfOther) :=
  ⟨_, _, _, Json.Value.hasMembers_ofTexts (by decide), Json.textWritten_encode (by decide),
    ⟨[], _, rfl, by decide⟩, Json.textWritten_encode (by decide), ⟨[_, _], [], rfl, by decide⟩,
    .missing (by simp [Json.Members.Lack, fieldsOfOther])⟩

theorem streamKey_toldBy : streamKey.ToldBy (.ofTexts fieldsOfStream) :=
  ⟨_, _, _, Json.Value.hasMembers_ofTexts (by decide), Json.textWritten_encode (by decide),
    ⟨[_, _], [], rfl, by decide⟩, Json.textWritten_encode (by decide), ⟨[], _, rfl, by decide⟩,
    .text (Json.textWritten_encode (by decide)) ⟨[_], _, rfl, by decide⟩⟩

private theorem keysOfStream_writtenIn : KeySet.WrittenIn ⟨[otherKey, streamKey]⟩ jsonOfStream.render := by
  have hkeys : TextWritten "keys".toList (Utf8.encode "keys".toList) := Json.textWritten_encode (by decide)
  refine ⟨_, [("keys".toList, _)], _, Json.written_render ?_, ⟨_, rfl, .cons ⟨hkeys, rfl⟩ .nil⟩,
    ⟨[], [], rfl, by simp⟩, .cons otherKey_toldBy (.cons streamKey_toldBy .nil)⟩
  exact ⟨hkeys.quotable, ⟨Json.Value.quotable_ofTexts (by decide), Json.Value.quotable_ofTexts (by decide), trivial⟩,
    trivial⟩

/-- The key for the stream stands behind a key of another type that has no id. -/
theorem plaintext_restored_behind_other_key :
    ∃ (helper : Helper) (made pending ready : Session) (request : KeyRequest)
      (resume : Session → Reply (.fetchLicense request) → Interaction collaborators Session (Except Error Unit)),
      helperOfStream.read (Pssh.ofKeyIds .clearKey [keyIdOfStream, Uuid.zero]).toBytes = .ok helper ∧
      Context.createSession { configuration := {} } helper = .ok (.clearKey made) ∧
      Context.acquireLicense { configuration := {} } helper made = .ask pending (.fetchLicense request) resume ∧
      resume pending (.ok (some ⟨jsonOfStream.render⟩)) = .done ready (.ok ()) ∧
      ∀ plaintext : Bytes,
        let iv : Bytes := List.replicate 8 5
        let ciphertext :=
          Keystream.apply (Keystream.bytes keyOfStream.bytes (Keystream.counterOf iv) plaintext.length) plaintext
        { ready with outputProtection := false }.decrypt { iv, keyId := keyIdOfStream.bytes } ciphertext =
          (.ok (), plaintext) := by
  obtain ⟨hreads, hall⟩ :=
    plaintext_restored { configuration := {} } helperOfStream keyIdOfStream [Uuid.zero] rfl (.inr ⟨rfl, rfl⟩)
  obtain ⟨helper, hread⟩ := hreads (by decide)
  obtain ⟨made, pending, request, resume, hexchange⟩ := hall helper hread
  have hspells : ∀ bytes, Spells (Base64.text bytes) bytes := fun bytes => ⟨0, (List.append_nil _).symm⟩
  have hidentified : KeySet.Identified ⟨[otherKey, streamKey]⟩ := by
    simp only [KeySet.Identified, List.forall_mem_cons]
    exact ⟨fun htype => absurd htype (by decide), fun _ => ⟨_, _, rfl, hspells _⟩, by simp⟩
  have hoffers : KeySet.Offers ⟨[otherKey, streamKey]⟩ keyIdOfStream keyOfStream := by
    refine ⟨[otherKey], streamKey, [], rfl, ?_, ⟨rfl, _, rfl, hspells _⟩, hspells _⟩
    simp only [List.forall_mem_singleton]
    exact fun hfor => absurd hfor.1 (by decide)
  obtain ⟨ready, hresume, -, hrestores⟩ :=
    hexchange.restores _ ⟨jsonOfStream.render⟩ keyOfStream keysOfStream_writtenIn hidentified hoffers
  refine ⟨helper, made, pending, ready, request, resume, hread, hexchange.created, hexchange.asks, hresume, ?_⟩
  intro plaintext iv ciphertext
  refine hrestores false ready.outputLink rfl _ _ _ rfl rfl (.inl rfl) (.inr rfl) ?_
  exact Keystream.addedAt_apply fun _ hindex => Keystream.getElem?_bytes keyOfStream.length_eq iv hindex

end ContentProtection.ClearKey
