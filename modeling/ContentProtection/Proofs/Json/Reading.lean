import ContentProtection.Proofs.Json.Grammar

/-!
# JSON texts are read

Every text that is a value written in JSON is read as that value. Tokens come back one by one, since none of them goes on into what follows it; and the tokens of a value, whatever container it stands in, lead the reader from where a value is due to where it is delivered.
-/

namespace ContentProtection.Json

/-! ### Numbers -/

theorem dropDigits?_append {digits rest : Bytes} (hdigits : IsDigits digits)
    (hrest : ∀ byte ∈ rest.head?, isDigit byte = false) : dropDigits? (digits ++ rest) = some rest := by
  obtain ⟨hsome, hall⟩ := hdigits
  cases digits with
  | nil => exact absurd rfl hsome
  | cons digit digits =>
    have hdrop : (digits ++ rest).dropWhile isDigit = rest := by
      rw [List.dropWhile_append_of_pos fun byte hmem => hall byte (.tail _ hmem)]
      cases rest with
      | nil => rfl
      | cons byte rest => rw [List.dropWhile_cons_of_neg (by simp [hrest byte rfl])]
    rw [List.cons_append, dropDigits?, if_pos (hall digit List.mem_cons_self), hdrop]

/-- Behind the mark of an exponent, a digit is not taken for a sign. -/
theorem dropExponent?_mark {mark : UInt8} (hmark : mark = 101 ∨ mark = 69) {digits : Bytes} (hdigits : IsDigits digits)
    (rest : Bytes) : dropExponent? (mark :: digits ++ rest) = dropDigits? (digits ++ rest) := by
  obtain ⟨hsome, hall⟩ := hdigits
  cases digits with
  | nil => exact absurd rfl hsome
  | cons digit digits =>
    have hdigit : isDigit digit = true := hall digit List.mem_cons_self
    have hplus : digit ≠ 43 := by
      rintro rfl
      cases hdigit
    have hminus : digit ≠ 45 := by
      rintro rfl
      cases hdigit
    rcases hmark with rfl | rfl <;> simp [dropExponent?, hplus, hminus]

theorem dropExponent?_append {exponent rest : Bytes} (hexponent : IsExponent exponent) (hrest : EndsNumber rest) :
    dropExponent? (exponent ++ rest) = some rest := by
  have hdigit : ∀ byte ∈ rest.head?, isDigit byte = false := fun byte hmem => (hrest byte hmem).1
  rcases hexponent with rfl | ⟨mark, hmark, sign, hsign, digits, hdigits, rfl⟩
  · cases rest with
    | nil => rfl
    | cons byte rest =>
      obtain ⟨-, -, hlower, hupper⟩ := hrest byte rfl
      rw [List.nil_append, dropExponent?.eq_def]
      split <;> simp_all
  · have hdrop := dropDigits?_append hdigits hdigit
    have hmark' : mark = 101 ∨ mark = 69 := by simpa using hmark
    have hsign' : sign = [] ∨ sign = [43] ∨ sign = [45] := by simpa using hsign
    rcases hsign' with rfl | rfl | rfl
    · exact (dropExponent?_mark hmark' hdigits rest).trans hdrop
    · rcases hmark' with rfl | rfl <;> exact hdrop
    · rcases hmark' with rfl | rfl <;> exact hdrop

theorem dropFraction?_append {fraction rest : Bytes} (hfraction : IsFraction fraction)
    (hrest : ∀ byte ∈ rest.head?, isDigit byte = false ∧ byte ≠ 46) :
    dropFraction? (fraction ++ rest) = some rest := by
  rcases hfraction with rfl | ⟨digits, hdigits, rfl⟩
  · cases rest with
    | nil => rfl
    | cons byte rest =>
      rw [List.nil_append, dropFraction?.eq_def]
      split
      · rename_i heq
        exact absurd (List.cons.inj heq).1 (hrest byte rfl).2
      · rfl
  · exact dropDigits?_append hdigits fun byte hmem => (hrest byte hmem).1

theorem dropInteger?_append {integer rest : Bytes} (hinteger : IsInteger integer)
    (hrest : ∀ byte ∈ rest.head?, isDigit byte = false) : dropInteger? (integer ++ rest) = some rest := by
  rcases hinteger with rfl | ⟨hdigits, hzero⟩
  · cases rest with
    | nil => rfl
    | cons byte rest => simp [dropInteger?, hrest byte rfl]
  · have hdrop := dropDigits?_append hdigits hrest
    cases integer with
    | nil => exact absurd rfl hdigits.1
    | cons digit digits =>
      have hdigit : digit ≠ 48 := fun heq => hzero (congrArg some heq)
      rw [dropInteger?.eq_def]
      split
      · rename_i heq
        exact absurd (List.cons.inj heq).1 hdigit
      · exact hdrop

theorem head?_exponent {exponent rest : Bytes} (hexponent : IsExponent exponent) (hrest : EndsNumber rest) :
    ∀ byte ∈ (exponent ++ rest).head?, isDigit byte = false ∧ byte ≠ 46 := by
  rcases hexponent with rfl | ⟨mark, hmark, sign, hsign, digits, hdigits, rfl⟩
  · exact fun byte hmem => ⟨(hrest byte hmem).1, (hrest byte hmem).2.1⟩
  · rintro _ ⟨⟩
    have hmark' : mark = 101 ∨ mark = 69 := by simpa using hmark
    rcases hmark' with rfl | rfl <;> decide

theorem head?_fraction {fraction rest : Bytes} (hfraction : IsFraction fraction)
    (hrest : ∀ byte ∈ rest.head?, isDigit byte = false) :
    ∀ byte ∈ (fraction ++ rest).head?, isDigit byte = false := by
  rcases hfraction with rfl | ⟨digits, hdigits, rfl⟩
  · exact hrest
  · rintro _ ⟨⟩
    decide

/-- A number begins with a digit or a minus sign. -/
theorem head?_integer {integer : Bytes} (hinteger : IsInteger integer) :
    ∃ digit rest, integer = digit :: rest ∧ isDigit digit = true := by
  rcases hinteger with rfl | ⟨⟨hsome, hall⟩, -⟩
  · exact ⟨48, [], rfl, rfl⟩
  · cases integer with
    | nil => exact absurd rfl hsome
    | cons digit rest => exact ⟨digit, rest, rfl, hall digit List.mem_cons_self⟩

theorem dropNumber?_append {number rest : Bytes} (hnumber : IsNumber number) (hrest : EndsNumber rest) :
    dropNumber? (number ++ rest) = some rest := by
  obtain ⟨sign, hsign, integer, fraction, exponent, hinteger, hfraction, hexponent, rfl⟩ := hnumber
  have hafter := head?_exponent hexponent hrest
  have hexponent' := dropExponent?_append hexponent hrest
  have hfraction' := dropFraction?_append hfraction hafter
  have hinteger' := dropInteger?_append hinteger (head?_fraction hfraction fun byte hmem => (hafter byte hmem).1)
  have hunsigned : dropSign (sign ++ integer ++ fraction ++ exponent ++ rest) =
      integer ++ (fraction ++ (exponent ++ rest)) := by
    have hsign' : sign = [] ∨ sign = [45] := by simpa using hsign
    rcases hsign' with rfl | rfl
    · obtain ⟨digit, others, rfl, hdigit⟩ := head?_integer hinteger
      have hminus : digit ≠ 45 := by
        rintro rfl
        cases hdigit
      simp [dropSign, hminus]
    · simp [dropSign]
  rw [dropNumber?, hunsigned, hinteger', Option.bind_some, hfraction', Option.bind_some, hexponent']

/-! ### Tokens -/

theorem readString?_append {written : Bytes} (hwritten : Quotable written) (rest : Bytes) :
    readString? (written ++ 34 :: rest) = some (written, rest) := by
  induction hwritten with
  | nil => rfl
  | @byte byte others hbyte _ ih =>
    obtain ⟨hcontrol, hquote, hescape⟩ := hbyte
    have hplain : ¬(byte < 32 ∨ byte = 92) := by
      rintro (hlt | heq)
      · exact absurd hcontrol (by simpa using hlt)
      · exact hescape heq
    rw [List.cons_append, readString?.eq_def]
    split <;> simp_all
  | @escape escape others hescape _ ih =>
    have hunicode : escape ≠ 117 := by
      rintro rfl
      cases hescape
    simp [readString?, hunicode, hescape, ih]
  | unicode hdigits _ ih => simp [readString?, hdigits, ih]

theorem head?_number {number : Bytes} (hnumber : IsNumber number) :
    ∃ byte rest, number = byte :: rest ∧ (isDigit byte = true ∨ byte = 45) := by
  obtain ⟨sign, hsign, integer, fraction, exponent, hinteger, -, -, rfl⟩ := hnumber
  have hsign' : sign = [] ∨ sign = [45] := by simpa using hsign
  rcases hsign' with rfl | rfl
  · obtain ⟨digit, rest, rfl, hdigit⟩ := head?_integer hinteger
    exact ⟨digit, _, rfl, .inl hdigit⟩
  · exact ⟨45, _, rfl, .inr rfl⟩

/-- Nothing else begins with a digit or a minus sign. -/
theorem readToken?_number {number rest : Bytes} (hnumber : IsNumber number) (hrest : EndsNumber rest) :
    readToken? (number ++ rest) = some (.number, rest) := by
  have hdrop := dropNumber?_append hnumber hrest
  obtain ⟨byte, others, rfl, hbyte⟩ := head?_number hnumber
  have hfirst : ∀ other ∈ ([91, 93, 123, 125, 44, 58, 110, 116, 102, 34] : Bytes), byte ≠ other := by
    rintro other hmem rfl
    simp only [List.mem_cons, List.not_mem_nil, or_false] at hmem
    rcases hmem with rfl | rfl | rfl | rfl | rfl | rfl | rfl | rfl | rfl | rfl <;> exact absurd hbyte (by decide)
  rw [List.cons_append] at hdrop ⊢
  simp only [List.forall_mem_cons] at hfirst
  rw [readToken?.eq_def]
  split <;> simp_all

theorem readToken?_written {token : Token} {first text : Bytes} (hfirst : token.Written first)
    (hends : token = .number → EndsNumber text) : readToken? (first ++ text) = some (token, text) := by
  cases hfirst with
  | number hnumber => exact readToken?_number hnumber (hends rfl)
  | @string written hwritten =>
    have hread := readString?_append hwritten text
    simp [readToken?, hread]
  | _ => rfl

/-- No token begins with a space. -/
theorem head?_written {token : Token} {first : Bytes} (hfirst : token.Written first) :
    ∃ byte rest, first = byte :: rest ∧ isSpace byte = false := by
  cases hfirst with
  | number hnumber =>
    obtain ⟨byte, rest, rfl, hbyte⟩ := head?_number hnumber
    refine ⟨byte, rest, rfl, Bool.eq_false_iff.mpr fun hspace => ?_⟩
    have hspace' : byte = 32 ∨ byte = 10 ∨ byte = 9 ∨ byte = 13 := by simpa [isSpace, or_assoc] using hspace
    rcases hspace' with rfl | rfl | rfl | rfl <;> exact absurd hbyte (by decide)
  | _ => exact ⟨_, _, rfl, rfl⟩

theorem tokens?_spelled {tokens : List Token} {text : Bytes} (hspelled : Spelled tokens text) :
    tokens? text = some tokens := by
  induction hspelled with
  | nil => simp [tokens?]
  | space hspace _ ih =>
    rw [tokens?, if_pos hspace]
    exact ih
  | @token token tokens first text hfirst hends _ ih =>
    have hread := readToken?_written hfirst hends
    obtain ⟨byte, rest, rfl, hspace⟩ := head?_written hfirst
    rw [List.cons_append] at hread ⊢
    rw [tokens?, if_neg (by simp [hspace])]
    split
    · rename_i hnone
      rw [hread] at hnone
      cases hnone
    · rename_i heq
      rw [hread] at heq
      cases heq
      rw [ih]
      rfl

/-! ### Values -/

open Reader (deliver step?)

theorem head?_tokens (value : Value) : ∃ token rest, value.tokens = token :: rest ∧ token ≠ .closeArray := by
  cases value <;> simp [Value.tokens]

/-- The first item is read where any other item is. -/
theorem foldlM_firstItem (outer : List Container) (item : Value) (rest : List Value) :
    (itemTokens (item :: rest) ++ [Token.closeArray]).foldlM step? ⟨outer, .firstItem⟩ =
      (itemTokens (item :: rest) ++ [Token.closeArray]).foldlM step? ⟨.array [] :: outer, .value⟩ := by
  obtain ⟨token, others, htokens, hclose⟩ := head?_tokens item
  have hstep : step? ⟨outer, .firstItem⟩ token = step? ⟨.array [] :: outer, .value⟩ token := by
    cases token <;> first | rfl | exact absurd rfl hclose
  cases rest <;> simp [itemTokens, htokens, hstep]

theorem foldlM_firstMember (outer : List Container) (member : Bytes × Value) (rest : List (Bytes × Value)) :
    (memberTokens (member :: rest) ++ [Token.closeObject]).foldlM step? ⟨outer, .firstKey⟩ =
      (memberTokens (member :: rest) ++ [Token.closeObject]).foldlM step? ⟨outer, .key []⟩ := by
  cases rest <;> rfl

mutual

/-- The tokens of a value lead from where it is due to where it is delivered. -/
theorem foldlM_tokens (outer : List Container) : ∀ value : Value,
    value.tokens.foldlM step? ⟨outer, .value⟩ = some (deliver outer value)
  | .null | .boolean _ | .number | .string _ | .array [] | .object [] => rfl
  | .array (item :: rest) => by
    have hitems := foldlM_itemTokens outer [] (item :: rest) (by simp)
    rw [← foldlM_firstItem] at hitems
    exact hitems
  | .object (member :: rest) => by
    have hmembers := foldlM_memberTokens outer [] (member :: rest) (by simp)
    rw [← foldlM_firstMember] at hmembers
    exact hmembers

theorem foldlM_itemTokens (outer : List Container) : ∀ (before items : List Value), items ≠ [] →
    (itemTokens items ++ [Token.closeArray]).foldlM step? ⟨.array before :: outer, .value⟩ =
      some (deliver outer (.array (before.reverse ++ items)))
  | _, [], hitems => absurd rfl hitems
  | before, [item], _ => by
    have hitem := foldlM_tokens (.array before :: outer) item
    rw [itemTokens, List.foldlM_append, hitem]
    show some (deliver outer (.array (item :: before).reverse)) = _
    rw [List.reverse_cons]
  | before, item :: next :: rest, _ => by
    have hitem := foldlM_tokens (.array before :: outer) item
    have hrest := foldlM_itemTokens outer (item :: before) (next :: rest) (by simp)
    show (item.tokens ++ .comma :: itemTokens (next :: rest) ++ [Token.closeArray]).foldlM step?
      ⟨.array before :: outer, .value⟩ = _
    rw [List.append_assoc, List.foldlM_append, hitem]
    show (itemTokens (next :: rest) ++ [Token.closeArray]).foldlM step? ⟨.array (item :: before) :: outer, .value⟩ = _
    rw [hrest, List.reverse_cons, List.append_assoc, List.singleton_append]

theorem foldlM_memberTokens (outer : List Container) : ∀ before members : List (Bytes × Value), members ≠ [] →
    (memberTokens members ++ [Token.closeObject]).foldlM step? ⟨outer, .key before⟩ =
      some (deliver outer (.object (before.reverse ++ members)))
  | _, [], hmembers => absurd rfl hmembers
  | before, [(key, value)], _ => by
    have hvalue := foldlM_tokens (.object before key :: outer) value
    show (value.tokens ++ [Token.closeObject]).foldlM step? ⟨.object before key :: outer, .value⟩ = _
    rw [List.foldlM_append, hvalue]
    show some (deliver outer (.object ((key, value) :: before).reverse)) = _
    rw [List.reverse_cons]
  | before, (key, value) :: next :: rest, _ => by
    have hvalue := foldlM_tokens (.object before key :: outer) value
    have hrest := foldlM_memberTokens outer ((key, value) :: before) (next :: rest) (by simp)
    show (value.tokens ++ .comma :: memberTokens (next :: rest) ++ [Token.closeObject]).foldlM step?
      ⟨.object before key :: outer, .value⟩ = _
    rw [List.append_assoc, List.foldlM_append, hvalue]
    show (memberTokens (next :: rest) ++ [Token.closeObject]).foldlM step? ⟨outer, .key ((key, value) :: before)⟩ = _
    rw [hrest, List.reverse_cons, List.append_assoc, List.singleton_append]

end

/-- A text that is a value written in JSON is read as this value. -/
theorem parse?_written {value : Value} {text : Bytes} (hwritten : value.Written text) : parse? text = some value := by
  have hread : value.tokens.foldlM step? {} = some ⟨[], .finished value⟩ := foldlM_tokens [] value
  rw [parse?, tokens?_spelled hwritten]
  show (value.tokens.foldlM step? {}).bind Reader.value? = some value
  rw [hread]
  rfl

end ContentProtection.Json
