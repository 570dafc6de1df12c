import ContentProtection.Proofs.Json.Record

/-!
# Values are written in JSON

The text of a value is the value written in JSON, provided that its strings can stand between quotes. Text of plain characters is such a string as it is.
-/

namespace ContentProtection.Json

mutual

/-- Whether all strings of a value can stand between quotes, keys included. -/
def Value.Quotable : Value → Prop
  | .string written => Json.Quotable written
  | .array items => QuotableItems items
  | .object members => QuotableMembers members
  | _ => True

def QuotableItems : List Value → Prop
  | [] => True
  | item :: rest => item.Quotable ∧ QuotableItems rest

def QuotableMembers : List (Bytes × Value) → Prop
  | [] => True
  | (key, value) :: rest => Json.Quotable key ∧ value.Quotable ∧ QuotableMembers rest

end

theorem endsNumber_punctuation {byte : UInt8} (hbyte : byte = 44 ∨ byte = 93 ∨ byte = 125) (rest : Bytes) :
    EndsNumber (byte :: rest) := by
  rintro _ ⟨⟩
  rcases hbyte with rfl | rfl | rfl <;> decide

/-- Only a number depends on what comes after it. -/
theorem Spelled.cons {token : Token} {tokens : List Token} {first text : Bytes} (hrest : Spelled tokens text)
    (hfirst : token.Written first) (hother : token ≠ .number) : Spelled (token :: tokens) (first ++ text) :=
  .token hfirst (fun heq => absurd heq hother) hrest

theorem Spelled.consString {written text : Bytes} {tokens : List Token} (hrest : Spelled tokens text)
    (hwritten : Json.Quotable written) : Spelled (.string written :: tokens) (34 :: written ++ 34 :: text) := by
  have hspelled := hrest.cons (.string hwritten) Token.noConfusion
  rwa [List.append_assoc] at hspelled

mutual

theorem spelled_render {tokens : List Token} {text : Bytes} (hrest : Spelled tokens text) (hends : EndsNumber text) :
    ∀ {value : Value}, value.Quotable → Spelled (value.tokens ++ tokens) (value.render ++ text)
  | .null, _ => hrest.cons .null Token.noConfusion
  | .boolean true, _ => hrest.cons .booleanTrue Token.noConfusion
  | .boolean false, _ => hrest.cons .booleanFalse Token.noConfusion
  | .number, _ =>
    .token (.number ⟨[], by simp, [48], [], [], .inl rfl, .inl rfl, .inl rfl, rfl⟩) (fun _ => hends) hrest
  | .string written, hquotable => by
    have hspelled := hrest.consString hquotable
    simpa [Value.tokens, Value.render] using hspelled
  | .array items, hquotable => by
    have hitems := spelled_renderItems (hrest.cons .closeArray Token.noConfusion)
      (endsNumber_punctuation (.inr (.inl rfl)) text) hquotable
    have hspelled := hitems.cons .openArray Token.noConfusion
    simpa [Value.tokens, Value.render] using hspelled
  | .object members, hquotable => by
    have hmembers := spelled_renderMembers (hrest.cons .closeObject Token.noConfusion)
      (endsNumber_punctuation (.inr (.inr rfl)) text) hquotable
    have hspelled := hmembers.cons .openObject Token.noConfusion
    simpa [Value.tokens, Value.render] using hspelled

theorem spelled_renderItems {tokens : List Token} {text : Bytes} (hrest : Spelled tokens text)
    (hends : EndsNumber text) :
    ∀ {items : List Value}, QuotableItems items → Spelled (itemTokens items ++ tokens) (renderItems items ++ text)
  | [], _ => hrest
  | [_], hquotable => spelled_render hrest hends hquotable.1
  | item :: next :: rest, hquotable => by
    have hothers := (spelled_renderItems hrest hends hquotable.2).cons .comma Token.noConfusion
    have hspelled := spelled_render hothers (endsNumber_punctuation (.inl rfl) _) hquotable.1
    simpa [itemTokens, renderItems] using hspelled

theorem spelled_renderMembers {tokens : List Token} {text : Bytes} (hrest : Spelled tokens text)
    (hends : EndsNumber text) : ∀ {members : List (Bytes × Value)}, QuotableMembers members →
      Spelled (memberTokens members ++ tokens) (renderMembers members ++ text)
  | [], _ => hrest
  | [(key, value)], hquotable => by
    have hvalue := (spelled_render hrest hends hquotable.2.1).cons .colon Token.noConfusion
    have hspelled := hvalue.consString hquotable.1
    simpa [memberTokens, renderMembers] using hspelled
  | (key, value) :: next :: rest, hquotable => by
    have hothers := (spelled_renderMembers hrest hends hquotable.2.2).cons .comma Token.noConfusion
    have hvalue := (spelled_render hothers (endsNumber_punctuation (.inl rfl) _) hquotable.2.1).cons .colon
      Token.noConfusion
    have hspelled := hvalue.consString hquotable.1
    simpa [memberTokens, renderMembers] using hspelled

end

theorem written_render {value : Value} (hquotable : value.Quotable) : value.Written value.render := by
  have hspelled := spelled_render .nil (by rintro _ ⟨⟩) hquotable
  rwa [List.append_nil, List.append_nil] at hspelled

/-! ### Plain texts -/

theorem textWritten_encode {text : List Char} (htext : text.all isPlain = true) :
    TextWritten text (Utf8.encode text) := by
  induction text with
  | nil => exact .nil
  | cons c text ih =>
    rw [List.all_cons, Bool.and_eq_true] at htext
    exact .cons (.plain htext.1) (ih htext.2)

/-- An object of texts, written as they are. -/
def Value.ofTexts (fields : List (List Char × List Char)) : Value :=
  .object (fields.map fun field => (Utf8.encode field.1, .string (Utf8.encode field.2)))

theorem Value.hasMembers_ofTexts {fields : List (List Char × List Char)}
    (hnames : fields.all (fun field => field.1.all isPlain) = true) :
    (Value.ofTexts fields).HasMembers (fields.map fun field => (field.1, .string (Utf8.encode field.2))) := by
  refine ⟨_, rfl, ?_⟩
  rw [List.forall₂_map_left_iff, List.forall₂_map_right_iff, List.forall₂_same]
  exact fun field hmem => ⟨textWritten_encode (List.all_eq_true.mp hnames field hmem), rfl⟩

theorem Value.quotable_ofTexts {fields : List (List Char × List Char)}
    (hfields : fields.all (fun field => field.1.all isPlain && field.2.all isPlain) = true) :
    (Value.ofTexts fields).Quotable := by
  show QuotableMembers _
  induction fields with
  | nil => trivial
  | cons field fields ih =>
    rw [List.all_cons, Bool.and_eq_true, Bool.and_eq_true] at hfields
    obtain ⟨⟨hname, htext⟩, hothers⟩ := hfields
    exact ⟨(textWritten_encode hname).quotable, (textWritten_encode htext).quotable, ih hothers⟩

end ContentProtection.Json
