import AllowedValues.Proofs.Literal.Spelling

/-!
Which fault a body has. Its elements are read one by one; where it goes on with something that
begins no element, what stands there alone decides on the fault.
-/

namespace AllowedValues.Literal

/-- The escapes with digits: what stands before the digits, their base and how many there are. -/
def digitEscapes : List (Text × Nat × Nat) :=
  [([], 8, 3), (['x'], 16, 2), (['u'], 16, 4), (['U'], 16, 8)]

/-- An escape of which digits are missing. The backslash does not stand alone: a letter comes after
it, or a first digit. -/
inductive Unfinished : Text → Nat → Prop
  | intro {mark digits : Text} {radix width n : Nat} : (mark, radix, width) ∈ digitEscapes →
      mark ++ digits ≠ [] → digits.length < width → number? radix digits = some n →
      Unfinished ('\\' :: (mark ++ digits)) radix

/-- The fault of a text that begins with no element. -/
inductive FaultAt : Text → Fault → Prop
  | quote (rest : Text) : FaultAt ('"' :: rest) .unescapedQuote
  | newline (rest : Text) : FaultAt ('\n' :: rest) .rawNewline
  | lone : FaultAt ['\\'] .truncatedEscape
  | unknown {c : Char} (rest : Text) : (∀ byte, (c, byte) ∉ letterEscapes) →
      digitValue? 8 c = none → c ∉ ['x', 'u', 'U'] → FaultAt ('\\' :: c :: rest) (.invalidEscape c)
  | cutOff {escape : Text} {radix : Nat} : Unfinished escape radix → FaultAt escape .truncatedEscape
  | noDigit {escape : Text} {radix : Nat} {c : Char} (rest : Text) : Unfinished escape radix →
      digitValue? radix c = none → FaultAt (escape ++ c :: rest) (.invalidEscape c)
  | octal {digits : Text} {n : Nat} (rest : Text) : digits.length = 3 →
      number? 8 digits = some n → 255 < n →
      FaultAt ('\\' :: (digits ++ rest)) (.octalOutOfRange n)
  | short {digits : Text} {n : Nat} (rest : Text) : digits.length = 4 →
      number? 16 digits = some n → ¬ n.isValidChar →
      FaultAt ('\\' :: 'u' :: (digits ++ rest)) (.invalidCodePoint n)
  | long {digits : Text} {n : Nat} (rest : Text) : digits.length = 8 →
      number? 16 digits = some n → ¬ n.isValidChar →
      FaultAt ('\\' :: 'U' :: (digits ++ rest)) (.invalidCodePoint n)

theorem exists_digits (radix width : Nat) (s : Text) :
    (∃ digits rest n, s = digits ++ rest ∧ digits.length = width ∧
        number? radix digits = some n) ∨
      ∃ digits n, digits.length < width ∧ number? radix digits = some n ∧
        (s = digits ∨ ∃ c rest, s = digits ++ c :: rest ∧ digitValue? radix c = none) := by
  induction width generalizing s with
  | zero => exact Or.inl ⟨[], s, 0, rfl, rfl, rfl⟩
  | succ width ih =>
      cases s with
      | nil => exact Or.inr ⟨[], 0, Nat.succ_pos _, rfl, Or.inl rfl⟩
      | cons c s =>
          cases hdigit : digitValue? radix c with
          | none => exact Or.inr ⟨[], 0, Nat.succ_pos _, rfl, Or.inr ⟨c, s, rfl, hdigit⟩⟩
          | some digit =>
              have hcons {digits : Text} {n : Nat} (hn : number? radix digits = some n) :
                  number? radix (c :: digits) = some (digit * radix ^ digits.length + n) :=
                number?_cons_eq_some_iff.2 ⟨digit, n, hdigit, hn, rfl⟩
              rcases ih s with ⟨digits, rest, n, rfl, hlength, hn⟩ | ⟨digits, n, hlength, hn, hend⟩
              · exact Or.inl ⟨c :: digits, rest, _, rfl, by rw [List.length_cons, hlength],
                  hcons hn⟩
              · refine Or.inr ⟨c :: digits, _, Nat.succ_lt_succ hlength, hcons hn, ?_⟩
                rcases hend with rfl | ⟨d, rest, rfl, hd⟩
                · exact Or.inl rfl
                · exact Or.inr ⟨d, rest, rfl, hd⟩

section Classification

theorem Element.ne_nil {element : Text} {bytes : List UInt8} (h : Element element bytes) :
    element ≠ [] := by
  cases h <;> exact List.cons_ne_nil _ _

theorem mem_letterEscapes {c : Char} {byte : UInt8} (h : letterByte? c = some byte) :
    (c, byte) ∈ letterEscapes := by
  unfold letterByte? at h
  split at h <;> cases h <;> decide

theorem exists_element_of_digits {mark digits : Text} {radix width n : Nat}
    (hmark : (mark, radix, width) ∈ digitEscapes) (hlength : digits.length = width)
    (hn : number? radix digits = some n) :
    (∃ bytes, Element ('\\' :: (mark ++ digits)) bytes) ∨
      ∃ fault, ∀ rest, FaultAt ('\\' :: (mark ++ digits ++ rest)) fault := by
  simp only [digitEscapes, List.mem_cons, Prod.mk.injEq, List.not_mem_nil, or_false] at hmark
  rcases hmark with ⟨rfl, rfl, rfl⟩ | ⟨rfl, rfl, rfl⟩ | ⟨rfl, rfl, rfl⟩ | ⟨rfl, rfl, rfl⟩
  · by_cases hle : n ≤ 255
    · exact Or.inl ⟨_, .octal hlength hn hle⟩
    · exact Or.inr ⟨_, fun rest => .octal rest hlength hn (Nat.lt_of_not_le hle)⟩
  · exact Or.inl ⟨_, .hex hlength hn⟩
  · by_cases hvalid : n.isValidChar
    · exact Or.inl ⟨_, .short hlength hn hvalid⟩
    · exact Or.inr ⟨_, fun rest => .short rest hlength hn hvalid⟩
  · by_cases hvalid : n.isValidChar
    · exact Or.inl ⟨_, .long hlength hn hvalid⟩
    · exact Or.inr ⟨_, fun rest => .long rest hlength hn hvalid⟩

theorem exists_element_of_mark {mark s : Text} {radix width : Nat}
    (hmark : (mark, radix, width) ∈ digitEscapes)
    (hfirst : mark = [] → ∃ c t digit, s = c :: t ∧ digitValue? radix c = some digit) :
    (∃ element rest bytes, '\\' :: (mark ++ s) = element ++ rest ∧ Element element bytes) ∨
      ∃ fault, FaultAt ('\\' :: (mark ++ s)) fault := by
  rcases exists_digits radix width s with
    ⟨digits, rest, n, rfl, hlength, hn⟩ | ⟨digits, n, hlength, hn, hend⟩
  · rw [← List.append_assoc]
    rcases exists_element_of_digits hmark hlength hn with ⟨bytes, helement⟩ | ⟨fault, hfault⟩
    · exact Or.inl ⟨_, rest, bytes, rfl, helement⟩
    · exact Or.inr ⟨fault, hfault rest⟩
  · have hne : mark ++ digits ≠ [] := by
      intro hnil
      obtain ⟨rfl, rfl⟩ := List.append_eq_nil_iff.1 hnil
      obtain ⟨c, t, digit, rfl, hdigit⟩ := hfirst rfl
      rcases hend with hs | ⟨d, rest, hs, hd⟩
      · cases hs
      · obtain ⟨rfl, -⟩ := List.cons.inj hs
        rw [hdigit] at hd
        cases hd
    have hunfinished : Unfinished ('\\' :: (mark ++ digits)) radix :=
      .intro hmark hne hlength hn
    rcases hend with rfl | ⟨c, rest, rfl, hc⟩
    · exact Or.inr ⟨_, .cutOff hunfinished⟩
    · have hfault := FaultAt.noDigit rest hunfinished hc
      rw [List.cons_append, List.append_assoc] at hfault
      exact Or.inr ⟨_, hfault⟩

theorem exists_element_or_fault (c : Char) (s : Text) :
    (∃ element rest bytes, c :: s = element ++ rest ∧ Element element bytes) ∨
      ∃ fault, FaultAt (c :: s) fault := by
  by_cases hquote : c = '"'
  · subst hquote
    exact Or.inr ⟨_, .quote s⟩
  by_cases hnewline : c = '\n'
  · subst hnewline
    exact Or.inr ⟨_, .newline s⟩
  by_cases hslash : c = '\\'
  · subst hslash
    cases s with
    | nil => exact Or.inr ⟨_, .lone⟩
    | cons d s =>
        cases hletter : letterByte? d with
        | some byte => exact Or.inl ⟨['\\', d], s, _, rfl, .letter (mem_letterEscapes hletter)⟩
        | none =>
            cases hoctal : digitValue? 8 d with
            | some digit =>
                exact @exists_element_of_mark [] (d :: s) 8 3 (by decide)
                  fun _ => ⟨d, s, digit, rfl, hoctal⟩
            | none =>
                by_cases hmark : d ∈ ['x', 'u', 'U']
                · obtain ⟨width, hwidth⟩ : ∃ width, ([d], 16, width) ∈ digitEscapes := by
                    simp only [List.mem_cons, List.not_mem_nil, or_false] at hmark
                    rcases hmark with rfl | rfl | rfl
                    · exact ⟨2, by decide⟩
                    · exact ⟨4, by decide⟩
                    · exact ⟨8, by decide⟩
                  exact exists_element_of_mark hwidth fun hnil => by cases hnil
                · refine Or.inr ⟨_, .unknown s (fun byte hbyte => ?_) hoctal hmark⟩
                  rw [letterByte?_of_mem hbyte] at hletter
                  cases hletter
  · exact Or.inl ⟨[c], s, _, rfl, .plain hquote hslash hnewline⟩

/-- A text is all elements, or elements with a fault after them. -/
theorem exists_body_or_fault (s : Text) : (∃ bytes, Body s bytes) ∨
    ∃ front bytes rest fault, s = front ++ rest ∧ Body front bytes ∧ FaultAt rest fault := by
  match s with
  | [] => exact Or.inl ⟨[], .nil⟩
  | c :: s =>
      rcases exists_element_or_fault c s with ⟨element, rest, bytes, hs, helement⟩ | ⟨fault, hfault⟩
      · have hlength := congrArg List.length hs
        have hpos := List.length_pos_of_ne_nil helement.ne_nil
        rw [hs]
        rcases exists_body_or_fault rest with
          ⟨bytes', hbody⟩ | ⟨front, bytes', rest, fault, rfl, hfront, hfault⟩
        · exact Or.inl ⟨_, .cons helement hbody⟩
        · exact Or.inr ⟨element ++ front, _, rest, fault, by rw [List.append_assoc],
            .cons helement hfront, hfault⟩
      · exact Or.inr ⟨[], [], c :: s, fault, rfl, .nil, hfault⟩
termination_by s.length
decreasing_by
  rw [List.length_append] at hlength
  omega

end Classification

section Decoding

theorem exists_readDigits_of_lt {front digits : Text} {radix width value n : Nat}
    {finish : Nat → Except Fault (List UInt8 × Nat)}
    (hread : ∀ s, readEscape (front ++ s) = (readDigits radix width value s).bind finish)
    (hlength : digits.length < width) (hn : number? radix digits = some n) :
    ∃ missing value', ∀ rest, readEscape (front ++ digits ++ rest) =
      (readDigits radix (missing + 1) value' rest).bind finish := by
  obtain ⟨missing, rfl⟩ : ∃ missing, width = digits.length + (missing + 1) :=
    ⟨width - digits.length - 1, by omega⟩
  refine ⟨missing, value * radix ^ digits.length + n, fun rest => ?_⟩
  rw [List.append_assoc, hread, readDigits_add hn]

theorem Unfinished.exists_readDigits {escape : Text} {radix : Nat}
    (h : Unfinished ('\\' :: escape) radix) : ∃ missing value finish, ∀ rest,
      readEscape (escape ++ rest) = (readDigits radix (missing + 1) value rest).bind finish := by
  cases h with
  | @intro mark digits radix width n hmark hne hlength hn =>
      simp only [digitEscapes, List.mem_cons, Prod.mk.injEq, List.not_mem_nil, or_false] at hmark
      rcases hmark with ⟨rfl, rfl, rfl⟩ | ⟨rfl, rfl, rfl⟩ | ⟨rfl, rfl, rfl⟩ | ⟨rfl, rfl, rfl⟩
      · -- The first digit is the mark of an octal escape.
        obtain ⟨c, digits, rfl⟩ := List.exists_cons_of_ne_nil hne
        obtain ⟨high, low, hhigh, hlow, -⟩ := number?_cons_eq_some_iff.1 hn
        have hread (s : Text) : readEscape ([c] ++ s) = (readDigits 8 2 high s).bind fun value =>
            if value ≤ 255 then .ok ([UInt8.ofNat value], 3)
            else .error (.octalOutOfRange value) := by
          rw [List.singleton_append, readEscape, letterByte?_of_octal hhigh, hhigh]
          rfl
        obtain ⟨missing, value, hvalue⟩ :=
          exists_readDigits_of_lt hread (Nat.lt_of_succ_lt_succ hlength) hlow
        exact ⟨missing, value, _, hvalue⟩
      · have hread (s : Text) : readEscape (['x'] ++ s) =
            (readDigits 16 2 0 s).bind fun value => .ok ([UInt8.ofNat value], 3) := rfl
        obtain ⟨missing, value, hvalue⟩ := exists_readDigits_of_lt hread hlength hn
        exact ⟨missing, value, _, hvalue⟩
      · have hread (s : Text) : readEscape (['u'] ++ s) = (readDigits 16 4 0 s).bind fun value =>
            (codePointBytes value).bind fun bytes => .ok (bytes, 5) := rfl
        obtain ⟨missing, value, hvalue⟩ := exists_readDigits_of_lt hread hlength hn
        exact ⟨missing, value, _, hvalue⟩
      · have hread (s : Text) : readEscape (['U'] ++ s) = (readDigits 16 8 0 s).bind fun value =>
            (codePointBytes value).bind fun bytes => .ok (bytes, 9) := rfl
        obtain ⟨missing, value, hvalue⟩ := exists_readDigits_of_lt hread hlength hn
        exact ⟨missing, value, _, hvalue⟩

theorem Unfinished.exists_eq_cons {escape : Text} {radix : Nat} (h : Unfinished escape radix) :
    ∃ rest, escape = '\\' :: rest := by
  cases h
  exact ⟨_, rfl⟩

theorem codePointBytes_of_not_isValidChar {n : Nat} (h : ¬ n.isValidChar) :
    codePointBytes n = .error (.invalidCodePoint n) := by
  rw [codePointBytes, if_neg h]

theorem bodyBytes_of_readEscape {s : Text} {fault : Fault} (h : readEscape s = .error fault) :
    bodyBytes ('\\' :: s) = .error fault := by
  rw [bodyBytes, if_neg (by decide), if_neg (by decide), if_pos rfl, h]

theorem FaultAt.bodyBytes_eq {s : Text} {fault : Fault} (h : FaultAt s fault) :
    bodyBytes s = .error fault := by
  cases h with
  | quote rest => rw [bodyBytes, if_pos rfl]
  | newline rest => rw [bodyBytes, if_neg (by decide), if_pos rfl]
  | lone => exact bodyBytes_of_readEscape rfl
  | @unknown c rest hletter hoctal hmark =>
      apply bodyBytes_of_readEscape
      have hnone : letterByte? c = none := by
        cases hbyte : letterByte? c with
        | none => rfl
        | some byte => exact absurd (mem_letterEscapes hbyte) (hletter byte)
      simp only [List.mem_cons, List.not_mem_nil, or_false, not_or] at hmark
      rw [readEscape, hnone, hoctal]
      simp only [if_neg hmark.1, if_neg hmark.2.1, if_neg hmark.2.2]
  | @cutOff escape radix hunfinished =>
      -- The text ends where a digit is wanted; in the next case something else stands there.
      obtain ⟨escape, rfl⟩ := hunfinished.exists_eq_cons
      obtain ⟨missing, value, finish, hread⟩ := hunfinished.exists_readDigits
      apply bodyBytes_of_readEscape
      rw [← List.append_nil escape, hread]
      rfl
  | @noDigit escape radix c rest hunfinished hc =>
      obtain ⟨escape, rfl⟩ := hunfinished.exists_eq_cons
      obtain ⟨missing, value, finish, hread⟩ := hunfinished.exists_readDigits
      apply bodyBytes_of_readEscape
      show readEscape (escape ++ c :: rest) = _
      rw [hread, readDigits, hc]
      rfl
  | @octal digits n rest hlength hn hlt =>
      obtain ⟨c, digits, rfl, hdigits⟩ := exists_cons_of_length hlength
      obtain ⟨high, low, hhigh, hlow, rfl⟩ := number?_cons_eq_some_iff.1 hn
      apply bodyBytes_of_readEscape
      have hread := readDigits_append hlow high rest
      rw [hdigits] at hread hlt ⊢
      rw [List.cons_append, readEscape, letterByte?_of_octal hhigh, hhigh]
      show (readDigits 8 2 high (digits ++ rest)).bind _ = _
      rw [hread]
      exact if_neg (Nat.not_le_of_lt hlt)
  | @short digits n rest hlength hn hvalid =>
      apply bodyBytes_of_readEscape
      rw [readEscape_codePoint (fun _ => rfl) hlength hn, codePointBytes_of_not_isValidChar hvalid]
      rfl
  | @long digits n rest hlength hn hvalid =>
      apply bodyBytes_of_readEscape
      rw [readEscape_codePoint (fun _ => rfl) hlength hn, codePointBytes_of_not_isValidChar hvalid]
      rfl

/-- Decoding fails where elements have a fault after them, and with this fault. -/
theorem bodyBytes_eq_error_iff {body : Text} {fault : Fault} :
    bodyBytes body = .error fault ↔ ∃ front bytes rest,
      body = front ++ rest ∧ Body front bytes ∧ FaultAt rest fault := by
  constructor
  · intro h
    rcases exists_body_or_fault body with
      ⟨bytes, hbody⟩ | ⟨front, bytes, rest, fault', rfl, hfront, hfault⟩
    · rw [hbody.bodyBytes_eq] at h
      cases h
    · rw [hfront.bodyBytes_append, hfault.bodyBytes_eq] at h
      cases h
      exact ⟨front, bytes, rest, rfl, hfront, hfault⟩
  · rintro ⟨front, bytes, rest, rfl, hfront, hfault⟩
    rw [hfront.bodyBytes_append, hfault.bodyBytes_eq]
    rfl

theorem interpretedValue_eq_error_iff {body : Text} {fault : Fault} (h : fault ≠ .invalidUtf8) :
    interpretedValue body = .error fault ↔ bodyBytes body = .error fault := by
  rw [interpretedValue]
  cases bodyBytes body with
  | error fault' => simp
  | ok bytes =>
      cases hdecode : bytes.toByteArray.utf8Decode? with
      | none => simp [hdecode, h.symm]
      | some characters => simp [hdecode]

theorem value_interpreted (body : Text) :
    value ('"' :: (body ++ ['"'])) = interpretedValue body := by
  rw [value, body?_quoted, body?_of_ne (by decide)]

end Decoding

section Units

/-- What is at fault in complete units is an escape: it is unknown, has no value, or ends with the
units while digits are missing. -/
theorem FaultAt.of_units {s : Text} {fault : Fault} (h : FaultAt s fault) (hs : Units '"' s) :
    fault ∉ [Fault.missingQuotes, .rawNewline, .unescapedQuote] ∧
      (fault = .truncatedEscape → ∃ radix, Unfinished s radix) := by
  cases h with
  | quote rest =>
      cases hs with
      | plain hquote _ _ _ => exact absurd rfl hquote
  | newline rest =>
      cases hs with
      | plain _ _ hnewline _ => exact absurd rfl hnewline
  | lone => exact absurd hs (not_units_backslash _)
  | cutOff hunfinished => exact ⟨by simp, fun _ => ⟨_, hunfinished⟩⟩
  | _ => simp

variable {body : Text} (hbody : Units '"' body)

include hbody

theorem value_eq_error_iff {fault : Fault} (hfault : fault ≠ .invalidUtf8) :
    value ('"' :: (body ++ ['"'])) = .error fault ↔ ∃ front bytes rest,
      body = front ++ rest ∧ Body front bytes ∧ Units '"' rest ∧ FaultAt rest fault := by
  rw [value_interpreted, interpretedValue_eq_error_iff hfault, bodyBytes_eq_error_iff]
  constructor
  · rintro ⟨front, bytes, rest, rfl, hfront, hat⟩
    exact ⟨front, bytes, rest, rfl, hfront, hfront.units.of_append hbody, hat⟩
  · rintro ⟨front, bytes, rest, rfl, hfront, -, hat⟩
    exact ⟨front, bytes, rest, rfl, hfront, hat⟩

theorem value_ne_error {fault : Fault}
    (hfault : fault ∈ [Fault.missingQuotes, .rawNewline, .unescapedQuote]) :
    value ('"' :: (body ++ ['"'])) ≠ .error fault := by
  have hutf8 : fault ≠ .invalidUtf8 := by
    rintro rfl
    simp at hfault
  rw [Ne, value_eq_error_iff hbody hutf8]
  rintro ⟨front, bytes, rest, -, -, hrest, hat⟩
  exact (hat.of_units hrest).1 hfault

/-- The closing quote cuts an escape off exactly where digits are missing before it. -/
theorem value_eq_truncatedEscape_iff :
    value ('"' :: (body ++ ['"'])) = .error .truncatedEscape ↔ ∃ front bytes escape radix,
      body = front ++ escape ∧ Body front bytes ∧ Unfinished escape radix := by
  constructor
  · rw [value_eq_error_iff hbody (by simp)]
    rintro ⟨front, bytes, rest, hsplit, hfront, hrest, hat⟩
    obtain ⟨radix, hcut⟩ := (hat.of_units hrest).2 rfl
    exact ⟨front, bytes, rest, radix, hsplit, hfront, hcut⟩
  · rintro ⟨front, bytes, escape, radix, hsplit, hfront, hcut⟩
    rw [value_interpreted, interpretedValue_eq_error_iff (by simp), bodyBytes_eq_error_iff]
    exact ⟨front, bytes, escape, hsplit, hfront, .cutOff hcut⟩

theorem ne_append_backslash {front : Text} {bytes : List UInt8} (hfront : Body front bytes) :
    body ≠ front ++ ['\\'] := by
  rintro rfl
  exact not_units_backslash _ (hfront.units.of_append hbody)

end Units

end AllowedValues.Literal
