import AllowedValues.Proofs.Literal.Fault

/-!
What decoding makes of a literal. It has a value exactly where it spells one. A quoted body that
spells none has the fault of what comes behind its longest sequence of elements, and only where
nothing comes behind them their bytes are looked at together.
-/

namespace AllowedValues.Literal

section Accepted

theorem utf8Decode?_eq_some_iff {bytes : List UInt8} {characters : Array Char} :
    bytes.toByteArray.utf8Decode? = some characters ↔
      bytes = characters.toList.flatMap String.utf8EncodeChar := by
  constructor
  · intro h
    have hsome : bytes.toByteArray.utf8Decode?.isSome = true := by rw [h, Option.isSome_some]
    have hencode := ByteArray.utf8Encode_get_utf8Decode? (b := bytes.toByteArray) (h := hsome)
    rw [Option.get_of_eq_some hsome h] at hencode
    exact List.toByteArray_inj.1 hencode.symm
  · rintro rfl
    exact List.utf8Decode?_utf8Encode

theorem bodyBytes_eq_ok_iff {body : Text} {bytes : List UInt8} :
    bodyBytes body = .ok bytes ↔ Body body bytes := by
  constructor
  · intro h
    rcases exists_body_or_fault body with
      ⟨bytes', hbody⟩ | ⟨front, bytes', rest, fault, hsplit, hfront, hfault⟩
    · rw [hbody.bodyBytes_eq] at h
      cases h
      exact hbody
    · rw [bodyBytes_eq_error_iff.2 ⟨front, bytes', rest, hsplit, hfront, hfault⟩] at h
      cases h
  · exact Body.bodyBytes_eq

theorem interpretedValue_eq_ok_iff {body decoded : Text} : interpretedValue body = .ok decoded ↔
    Body body (decoded.flatMap String.utf8EncodeChar) := by
  constructor
  · intro h
    rw [interpretedValue] at h
    split at h
    · cases h
    · rename_i bytes hbytes
      split at h
      · rename_i characters hdecode
        cases h
        rw [← utf8Decode?_eq_some_iff.1 hdecode]
        exact bodyBytes_eq_ok_iff.1 hbytes
      · cases h
  · intro h
    have hdecode := (@utf8Decode?_eq_some_iff _ decoded.toArray).2 rfl
    simp only [interpretedValue, h.bodyBytes_eq, hdecode]

theorem rawValue_eq_ok_iff {body decoded : Text} :
    rawValue body = .ok decoded ↔ '`' ∉ body ∧ decoded = body.filter (· ≠ '\r') := by
  rw [rawValue]
  by_cases hbody : '`' ∈ body
  · simp [hbody]
  · simp [hbody, eq_comm]

theorem body?_eq_some_iff {quote : Char} {literal body : Text} :
    body? quote literal = some body ↔ literal = quote :: (body ++ [quote]) := by
  constructor
  · intro h
    cases literal with
    | nil => cases h
    | cons c s =>
        rw [body?] at h
        split_ifs at h with hquotes
        obtain ⟨rfl, hlast⟩ := hquotes
        rw [← Option.some.inj h, List.dropLast_append_getLast? _ hlast]
  · rintro rfl
    exact body?_quoted quote body

/-- A literal has a value exactly where it spells one: between backticks it is the text without
carriage returns, and between double quotes the text of which the elements together give the UTF-8
form. -/
theorem value_eq_ok_iff_spells (literal decoded : Text) :
    value literal = .ok decoded ↔ Spells literal decoded := by
  constructor
  · intro h
    rw [value] at h
    split at h
    · rename_i body hbody
      rw [body?_eq_some_iff.1 hbody]
      exact .interpreted (interpretedValue_eq_ok_iff.1 h)
    · rename_i body _ hbody
      obtain ⟨hraw, rfl⟩ := rawValue_eq_ok_iff.1 h
      rw [body?_eq_some_iff.1 hbody]
      exact .raw hraw
    · cases h
  · exact Spells.value_eq

/-- Two escapes, neither of which stands for a text, are one character together. -/
example : value ['"', '\\', 'x', 'c', '3', '\\', '2', '5', '1', '"'] = .ok ['é'] := by
  decide +kernel

end Accepted

/-- The longest sequence of elements that a body begins with, the bytes that it stands for and what
comes after it. -/
structure LongestElements (body front : Text) (bytes : List UInt8) (rest : Text) : Prop where
  body_eq : body = front ++ rest
  elements : Body front bytes
  longest : ∀ {front' rest' : Text} {bytes' : List UInt8}, Body front' bytes' →
    body = front' ++ rest' → front'.length ≤ front.length

/-- A text shows a fault with its last character and no sooner: what comes after it does not count,
and a text that stops before that character is an escape that is cut off. -/
structure ShowsFault (shown : Text) (fault : Fault) : Prop where
  faultAt : ∀ after, FaultAt (shown ++ after) fault
  cutOff : ∀ {part missing : Text}, part ≠ [] → missing ≠ [] → shown = part ++ missing →
    FaultAt part .truncatedEscape

section Shown

theorem exists_number?_of_append {radix n : Nat} {digits more : Text}
    (h : number? radix (digits ++ more) = some n) : ∃ m, number? radix digits = some m := by
  induction digits generalizing n with
  | nil => exact ⟨0, rfl⟩
  | cons c digits ih =>
      obtain ⟨digit, rest, hdigit, hrest, -⟩ := number?_cons_eq_some_iff.1 h
      obtain ⟨m, hm⟩ := ih hrest
      exact ⟨_, number?_cons_eq_some_iff.2 ⟨digit, m, hdigit, hm, rfl⟩⟩

theorem cutOff_of_digits {mark digits part missing : Text} {radix width n : Nat}
    (hmark : (mark, radix, width) ∈ digitEscapes) (hn : number? radix digits = some n)
    (hlength : digits.length ≤ width) (hpart : part ≠ []) (hmissing : missing ≠ [])
    (hsplit : '\\' :: (mark ++ digits) = part ++ missing) : FaultAt part .truncatedEscape := by
  obtain ⟨c, part, rfl⟩ := List.exists_cons_of_ne_nil hpart
  obtain ⟨rfl, -⟩ := List.cons.inj hsplit
  cases part with
  | nil => exact .lone
  | cons d part =>
      have hrest : mark ++ digits = d :: part ++ missing := (List.cons.inj hsplit).2
      -- The mark is one letter at most, and so all of it stands before the missing end.
      have hshort : mark.length ≤ (d :: part).length := by
        have hone : mark.length ≤ 1 := by
          simp only [digitEscapes, List.mem_cons, Prod.mk.injEq, List.not_mem_nil,
            or_false] at hmark
          rcases hmark with ⟨rfl, -⟩ | ⟨rfl, -⟩ | ⟨rfl, -⟩ | ⟨rfl, -⟩ <;> simp
        rw [List.length_cons]
        omega
      obtain ⟨front, hfront⟩ := exists_append_of_append hrest.symm hshort
      rw [hfront, List.append_assoc, List.append_cancel_left_eq] at hrest
      have hmore := List.length_pos_of_ne_nil hmissing
      rw [hrest, List.length_append] at hlength
      rw [hrest] at hn
      obtain ⟨m, hm⟩ := exists_number?_of_append hn
      rw [hfront]
      exact .cutOff (.intro hmark (hfront ▸ List.cons_ne_nil d part) (by omega) hm)

theorem showsFault_of_digits {mark digits : Text} {radix width n : Nat} {fault : Fault}
    (hmark : (mark, radix, width) ∈ digitEscapes) (hlength : digits.length = width)
    (hn : number? radix digits = some n)
    (hfault : ∀ after, FaultAt ('\\' :: (mark ++ digits) ++ after) fault) :
    ShowsFault ('\\' :: (mark ++ digits)) fault where
  faultAt := hfault
  cutOff := cutOff_of_digits hmark hn hlength.le

theorem Unfinished.faultAt_of_append {part missing : Text} {radix : Nat}
    (h : Unfinished (part ++ missing) radix) (hpart : part ≠ []) :
    FaultAt part .truncatedEscape := by
  by_cases hmissing : missing = []
  · rw [hmissing, List.append_nil] at h
    exact .cutOff h
  · generalize hescape : part ++ missing = escape at h
    cases h with
    | intro hmark _ hlength hn =>
        exact cutOff_of_digits hmark hn hlength.le hpart hmissing hescape.symm

theorem singleton_ne_append {c : Char} {part missing : Text} (hpart : part ≠ [])
    (hmissing : missing ≠ []) : [c] ≠ part ++ missing := by
  intro hsplit
  rcases List.append_eq_singleton_iff.1 hsplit.symm with ⟨hnil, -⟩ | ⟨-, hnil⟩
  · exact hpart hnil
  · exact hmissing hnil

/-- A fault is shown by what the text begins with, unless the end of the text is the fault. -/
theorem FaultAt.exists_showsFault {s : Text} {fault : Fault} (h : FaultAt s fault)
    (hfault : fault ≠ .truncatedEscape) :
    ∃ shown after, s = shown ++ after ∧ ShowsFault shown fault := by
  cases h with
  | quote rest =>
      exact ⟨['"'], rest, rfl, .quote, fun hpart hmissing hsplit =>
        absurd hsplit (singleton_ne_append hpart hmissing)⟩
  | newline rest =>
      exact ⟨['\n'], rest, rfl, .newline, fun hpart hmissing hsplit =>
        absurd hsplit (singleton_ne_append hpart hmissing)⟩
  | lone => exact absurd rfl hfault
  | @unknown c rest hletter hoctal hmark =>
      refine ⟨['\\', c], rest, rfl, fun after => .unknown after hletter hoctal hmark, ?_⟩
      intro part missing hpart hmissing hsplit
      obtain ⟨d, part, rfl⟩ := List.exists_cons_of_ne_nil hpart
      obtain ⟨rfl, hrest⟩ := List.cons.inj hsplit
      cases part with
      | nil => exact .lone
      | cons d part => exact absurd hrest (singleton_ne_append (List.cons_ne_nil d part) hmissing)
  | cutOff _ => exact absurd rfl hfault
  | @noDigit escape radix c rest hunfinished hc =>
      refine ⟨escape ++ [c], rest, by simp, fun after => ?_, ?_⟩
      · rw [List.append_assoc]
        exact .noDigit after hunfinished hc
      · intro part missing hpart hmissing hsplit
        have hback := List.length_pos_of_ne_nil hmissing
        have hlength := congrArg List.length hsplit
        rw [List.length_append, List.length_append, List.length_singleton] at hlength
        obtain ⟨others, rfl⟩ := exists_append_of_append hsplit (by omega)
        exact hunfinished.faultAt_of_append hpart
  | @octal digits n rest hlength hn hlt =>
      exact ⟨'\\' :: digits, rest, rfl, @showsFault_of_digits [] digits 8 3 n _ (by decide) hlength
        hn fun after => .octal after hlength hn hlt⟩
  | @short digits n rest hlength hn hvalid =>
      exact ⟨'\\' :: 'u' :: digits, rest, rfl, @showsFault_of_digits ['u'] digits 16 4 n _
        (by decide) hlength hn fun after => .short after hlength hn hvalid⟩
  | @long digits n rest hlength hn hvalid =>
      exact ⟨'\\' :: 'U' :: digits, rest, rfl, @showsFault_of_digits ['U'] digits 16 8 n _
        (by decide) hlength hn fun after => .long after hlength hn hvalid⟩

theorem FaultAt.truncatedEscape_of_append {part missing : Text}
    (h : FaultAt (part ++ missing) .truncatedEscape) (hpart : part ≠ []) :
    FaultAt part .truncatedEscape := by
  generalize hs : part ++ missing = s at h
  cases h with
  | lone =>
      rcases List.append_eq_singleton_iff.1 hs with ⟨rfl, -⟩ | ⟨rfl, -⟩
      · exact absurd rfl hpart
      · exact .lone
  | cutOff hunfinished => exact (hs ▸ hunfinished).faultAt_of_append hpart

theorem FaultAt.exists_of_append {part rest : Text} {fault : Fault}
    (h : FaultAt (part ++ rest) fault) (hpart : part ≠ []) : ∃ fault', FaultAt part fault' := by
  by_cases hfault : fault = .truncatedEscape
  · subst hfault
    exact ⟨_, h.truncatedEscape_of_append hpart⟩
  · obtain ⟨shown, after, hsplit, hshown⟩ := h.exists_showsFault hfault
    rcases List.append_eq_append_iff.1 hsplit with ⟨missing, hmore, -⟩ | ⟨more, hmore, -⟩
    · by_cases hmissing : missing = []
      · rw [hmissing, List.append_nil] at hmore
        exact ⟨fault, by simpa [hmore] using hshown.faultAt []⟩
      · exact ⟨_, hshown.cutOff hpart hmissing hmore⟩
    · exact ⟨fault, hmore ▸ hshown.faultAt more⟩

end Shown

section Leftmost

theorem FaultAt.ne_nil {s : Text} {fault : Fault} (h : FaultAt s fault) : s ≠ [] := by
  rintro rfl
  have hbytes := h.bodyBytes_eq
  rw [bodyBytes] at hbytes
  cases hbytes

theorem FaultAt.ne_invalidUtf8 {s : Text} {fault : Fault} (h : FaultAt s fault) :
    fault ≠ .invalidUtf8 := by
  rintro rfl
  cases h

/-- Elements before a fault are the longest sequence of them: none goes on into the fault. -/
theorem longestElements_of_faultAt {front rest : Text} {bytes : List UInt8} {fault : Fault}
    (hfront : Body front bytes) (h : FaultAt rest fault) :
    LongestElements (front ++ rest) front bytes rest where
  body_eq := rfl
  elements := hfront
  longest := by
    intro front' rest' bytes' hfront' hsplit
    by_contra hlonger
    obtain ⟨more, rfl⟩ := exists_append_of_append hsplit.symm (by omega)
    rw [List.append_assoc, List.append_cancel_left_eq] at hsplit
    have hmore : more ≠ [] := by
      rintro rfl
      simp at hlonger
    rw [hsplit] at h
    obtain ⟨fault', hfault'⟩ := h.exists_of_append hmore
    have hbytes := hfront.bodyBytes_append more
    rw [hfront'.bodyBytes_eq, hfault'.bodyBytes_eq] at hbytes
    cases hbytes

theorem longestElements_self {body : Text} {bytes : List UInt8} (hbody : Body body bytes) :
    LongestElements body body bytes [] where
  body_eq := (List.append_nil body).symm
  elements := hbody
  longest := by
    intro front' rest' bytes' _ hsplit
    rw [hsplit, List.length_append]
    exact Nat.le_add_right _ _

/-- Elements that cover a body leave one fault only: their bytes are no text. -/
theorem Body.value_eq_error_iff {body : Text} {bytes : List UInt8} (hbody : Body body bytes)
    {fault : Fault} : value ('"' :: (body ++ ['"'])) = .error fault ↔
      fault = .invalidUtf8 ∧ ∀ decoded : Text, bytes ≠ decoded.flatMap String.utf8EncodeChar := by
  have hnone : bytes.toByteArray.utf8Decode? = none ↔
      ∀ decoded : Text, bytes ≠ decoded.flatMap String.utf8EncodeChar := by
    rw [Option.eq_none_iff_forall_ne_some]
    constructor
    · intro h decoded hbytes
      exact h decoded.toArray (utf8Decode?_eq_some_iff.2 hbytes)
    · intro h characters hdecode
      exact h characters.toList (utf8Decode?_eq_some_iff.1 hdecode)
  rw [value_interpreted, interpretedValue, hbody.bodyBytes_eq, ← hnone]
  cases hdecode : bytes.toByteArray.utf8Decode? with
  | none => simp [hdecode, eq_comm]
  | some characters => simp [hdecode]

theorem FaultAt.value_eq {front rest : Text} {bytes : List UInt8} {fault : Fault}
    (h : FaultAt rest fault) (hfront : Body front bytes) :
    value ('"' :: (front ++ rest ++ ['"'])) = .error fault := by
  rw [value_interpreted, interpretedValue_eq_error_iff h.ne_invalidUtf8]
  exact bodyBytes_eq_error_iff.2 ⟨front, bytes, rest, rfl, hfront, h⟩

/-- The leftmost fault of a quoted body is the one reported. Where the longest sequence of elements
covers the body, it can only be that their bytes are no text. Where it does not, what comes after
it decides on the fault, by itself and with its first characters: neither other elements before
them nor any other text after them give another fault. -/
theorem value_eq_error_iff_leftmost (body : Text) :
    ∃ front bytes rest, LongestElements body front bytes rest ∧
      (∀ fault, value ('"' :: (body ++ ['"'])) = .error fault ↔
        (rest = [] ∧ fault = .invalidUtf8 ∧
          ∀ decoded : Text, bytes ≠ decoded.flatMap String.utf8EncodeChar) ∨
        FaultAt rest fault) ∧
      ∀ fault, FaultAt rest fault → fault ≠ .truncatedEscape → ∃ shown after,
        rest = shown ++ after ∧ ShowsFault shown fault ∧
          ∀ front' bytes' after', Body front' bytes' →
            value ('"' :: (front' ++ (shown ++ after') ++ ['"'])) = .error fault := by
  rcases exists_body_or_fault body with
    ⟨bytes, hbody⟩ | ⟨front, bytes, rest, fault, rfl, hfront, hfault⟩
  · refine ⟨body, bytes, [], longestElements_self hbody, fun fault => ?_, fun fault h => ?_⟩
    · rw [hbody.value_eq_error_iff]
      constructor
      · exact fun h => Or.inl ⟨rfl, h⟩
      · rintro (⟨-, h⟩ | h)
        · exact h
        · exact absurd rfl h.ne_nil
    · exact absurd rfl h.ne_nil
  · refine ⟨front, bytes, rest, longestElements_of_faultAt hfront hfault, fun fault' => ?_,
      fun fault' h hother => ?_⟩
    · constructor
      · intro h
        rw [hfault.value_eq hfront] at h
        exact Or.inr (Except.error.inj h ▸ hfault)
      · rintro (⟨hnil, -⟩ | h)
        · exact absurd hnil hfault.ne_nil
        · exact h.value_eq hfront
    · obtain ⟨shown, after, hsplit, hshown⟩ := h.exists_showsFault hother
      exact ⟨shown, after, hsplit, hshown, fun front' bytes' after' hfront' =>
        (hshown.faultAt after').value_eq hfront'⟩

/-- Behind a byte that is no text, and before a quote and an escape that is cut off. -/
example : value ['"', '\\', 'x', 'f', 'f', '\\', 'u', '0', 'g', '"', '\\', '"'] =
    .error (.invalidEscape 'g') := by
  decide +kernel

end Leftmost

end AllowedValues.Literal
