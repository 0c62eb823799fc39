import AllowedValues.Literal.Value
import AllowedValues.Proofs.Literal.Extent
import Mathlib.Algebra.Group.Nat.Defs

/-!
How a value can be spelled. The body of an interpreted literal is made of elements, each of which
stands for some bytes, and the bytes of all of them are the UTF-8 form of the value. A raw literal
is the value itself. Decoding undoes every spelling.
-/

namespace AllowedValues.Literal

/-- The number that digits spell in a base. -/
def number? (radix : Nat) : Text → Option Nat
  | [] => some 0
  | c :: digits => do
      let digit ← digitValue? radix c
      let rest ← number? radix digits
      return digit * radix ^ digits.length + rest

/-- The escapes of one letter, with the bytes they stand for. -/
def letterEscapes : List (Char × UInt8) :=
  [('a', 7), ('b', 8), ('f', 12), ('n', 10), ('r', 13), ('t', 9), ('v', 11), ('\\', 92), ('"', 34)]

/-- An element of an interpreted body and the bytes it stands for. -/
inductive Element : Text → List UInt8 → Prop
  | plain {c : Char} :
      c ≠ '"' → c ≠ '\\' → c ≠ '\n' → Element [c] (String.utf8EncodeChar c)
  | letter {c : Char} {byte : UInt8} : (c, byte) ∈ letterEscapes → Element ['\\', c] [byte]
  | octal {digits : Text} {n : Nat} : digits.length = 3 → number? 8 digits = some n → n ≤ 255 →
      Element ('\\' :: digits) [UInt8.ofNat n]
  | hex {digits : Text} {n : Nat} : digits.length = 2 → number? 16 digits = some n →
      Element ('\\' :: 'x' :: digits) [UInt8.ofNat n]
  | short {digits : Text} {n : Nat} : digits.length = 4 → number? 16 digits = some n →
      n.isValidChar → Element ('\\' :: 'u' :: digits) (String.utf8EncodeChar (Char.ofNat n))
  | long {digits : Text} {n : Nat} : digits.length = 8 → number? 16 digits = some n →
      n.isValidChar → Element ('\\' :: 'U' :: digits) (String.utf8EncodeChar (Char.ofNat n))

/-- A body made of elements and the bytes they stand for together. -/
inductive Body : Text → List UInt8 → Prop
  | nil : Body [] []
  | cons {element body : Text} {bytes rest : List UInt8} :
      Element element bytes → Body body rest → Body (element ++ body) (bytes ++ rest)

/-- A literal and the value that it spells. -/
inductive Spells : Text → Text → Prop
  | interpreted {body value : Text} : Body body (value.flatMap String.utf8EncodeChar) →
      Spells ('"' :: (body ++ ['"'])) value
  | raw {body : Text} : '`' ∉ body → Spells ('`' :: (body ++ ['`'])) (body.filter (· ≠ '\r'))

theorem number?_cons_eq_some_iff {radix n : Nat} {c : Char} {digits : Text} :
    number? radix (c :: digits) = some n ↔ ∃ digit rest, digitValue? radix c = some digit ∧
      number? radix digits = some rest ∧ n = digit * radix ^ digits.length + rest := by
  simp only [number?, bind, Option.bind_eq_some_iff, pure, Option.some.injEq]
  constructor
  · rintro ⟨digit, hdigit, rest, hrest, rfl⟩
    exact ⟨digit, rest, hdigit, hrest, rfl⟩
  · rintro ⟨digit, rest, hdigit, hrest, rfl⟩
    exact ⟨digit, hdigit, rest, hrest, rfl⟩

/-- Digits are taken into the number read before them, and reading goes on behind them. -/
theorem readDigits_add {radix n : Nat} {digits : Text} (h : number? radix digits = some n)
    (missing value : Nat) (rest : Text) :
    readDigits radix (digits.length + missing) value (digits ++ rest) =
      readDigits radix missing (value * radix ^ digits.length + n) rest := by
  induction digits generalizing value n with
  | nil =>
      obtain rfl := Option.some.inj h
      simp
  | cons c digits ih =>
      obtain ⟨digit, m, hdigit, hm, rfl⟩ := number?_cons_eq_some_iff.1 h
      rw [List.length_cons, Nat.add_right_comm, List.cons_append, readDigits, hdigit]
      simp only [ih hm]
      rw [Nat.pow_succ, Nat.add_mul, Nat.mul_assoc, Nat.mul_comm radix, Nat.add_assoc]

theorem readDigits_append {radix n : Nat} {digits : Text} (h : number? radix digits = some n)
    (value : Nat) (rest : Text) : readDigits radix digits.length value (digits ++ rest) =
      .ok (value * radix ^ digits.length + n) := by
  have hadd := readDigits_add h 0 value rest
  rwa [Nat.add_zero, readDigits] at hadd

theorem letterByte?_of_mem {c : Char} {byte : UInt8} (h : (c, byte) ∈ letterEscapes) :
    letterByte? c = some byte := by
  simp only [letterEscapes, List.mem_cons, Prod.mk.injEq, List.not_mem_nil, or_false] at h
  rcases h with ⟨rfl, rfl⟩ | ⟨rfl, rfl⟩ | ⟨rfl, rfl⟩ | ⟨rfl, rfl⟩ | ⟨rfl, rfl⟩ | ⟨rfl, rfl⟩ |
    ⟨rfl, rfl⟩ | ⟨rfl, rfl⟩ | ⟨rfl, rfl⟩ <;> rfl

theorem digit_ne {radix digit : Nat} {c : Char} (h : digitValue? radix c = some digit) :
    c ≠ '"' ∧ c ≠ '\\' ∧ c ≠ '\n' := by
  refine ⟨?_, ?_, ?_⟩
  all_goals
    rintro rfl
    cases h

theorem letterByte?_of_octal {c : Char} {digit : Nat} (h : digitValue? 8 c = some digit) :
    letterByte? c = none := by
  unfold letterByte?
  split
  all_goals first
    | rfl
    | cases h

theorem units_of_number? {radix n : Nat} {digits : Text} (h : number? radix digits = some n) :
    Units '"' digits := by
  induction digits generalizing n with
  | nil => exact .nil
  | cons c digits ih =>
      obtain ⟨digit, rest, hdigit, hrest, -⟩ := number?_cons_eq_some_iff.1 h
      obtain ⟨hquote, hslash, hnewline⟩ := digit_ne hdigit
      exact .plain hquote hslash hnewline (ih hrest)

theorem exists_cons_of_length {n : Nat} {s : Text} (h : s.length = n + 1) :
    ∃ c t, s = c :: t ∧ t.length = n := by
  cases s with
  | nil => simp at h
  | cons c t => exact ⟨c, t, rfl, Nat.succ.inj h⟩

theorem Element.units {element : Text} {bytes : List UInt8} (h : Element element bytes) :
    Units '"' element := by
  cases h with
  | plain hquote hslash hnewline => exact .plain hquote hslash hnewline .nil
  | @letter c byte hletter =>
      have hnewline : c ≠ '\n' := by
        rintro rfl
        cases letterByte?_of_mem hletter
      exact .escaped hnewline .nil
  | @octal digits n hlength hn =>
      obtain ⟨c, digits, rfl, -⟩ := exists_cons_of_length hlength
      obtain ⟨digit, rest, hdigit, hrest, -⟩ := number?_cons_eq_some_iff.1 hn
      exact .escaped (digit_ne hdigit).2.2 (units_of_number? hrest)
  | hex _ hn => exact .escaped (by decide) (units_of_number? hn)
  | short _ hn => exact .escaped (by decide) (units_of_number? hn)
  | long _ hn => exact .escaped (by decide) (units_of_number? hn)

theorem Body.units {body : Text} {bytes : List UInt8} (h : Body body bytes) : Units '"' body := by
  induction h with
  | nil => exact .nil
  | cons helement _ ih => exact helement.units.append ih

/-- Both escapes of a code point are read alike: their digits are read as a code point. -/
theorem readEscape_codePoint {letter : Char} {width n : Nat} {digits : Text}
    (hletter : ∀ s, readEscape (letter :: s) = (readDigits 16 width 0 s).bind fun n =>
      (codePointBytes n).bind fun bytes => .ok (bytes, width + 1))
    (hlength : digits.length = width) (hn : number? 16 digits = some n) (rest : Text) :
    readEscape (letter :: (digits ++ rest)) =
      (codePointBytes n).bind fun bytes => .ok (bytes, (letter :: digits).length) := by
  have hread := readDigits_append hn 0 rest
  rw [hlength, Nat.zero_mul, Nat.zero_add] at hread
  rw [hletter, hread, List.length_cons, hlength]
  rfl

theorem codePointBytes_of_isValidChar {n : Nat} (h : n.isValidChar) :
    codePointBytes n = .ok (String.utf8EncodeChar (Char.ofNat n)) := by
  rw [codePointBytes, if_pos h]

theorem bodyBytes_escape {escape rest : Text} {bytes : List UInt8}
    (h : readEscape (escape ++ rest) = .ok (bytes, escape.length)) :
    bodyBytes ('\\' :: (escape ++ rest)) = (bodyBytes rest).map (bytes ++ ·) := by
  rw [bodyBytes, if_neg (by decide), if_neg (by decide), if_pos rfl, h]
  simp only [List.drop_left]

theorem Element.bodyBytes_append {element : Text} {bytes : List UInt8} (h : Element element bytes)
    (rest : Text) : bodyBytes (element ++ rest) = (bodyBytes rest).map (bytes ++ ·) := by
  cases h with
  | plain hquote hslash hnewline =>
      rw [List.cons_append, List.nil_append, bodyBytes, if_neg hquote, if_neg hnewline,
        if_neg hslash]
  | @letter c byte hletter =>
      refine @bodyBytes_escape [c] rest _ ?_
      rw [List.cons_append, readEscape, letterByte?_of_mem hletter]
      rfl
  | @octal digits n hlength hn hle =>
      -- The first digit decides that the escape is octal; the other two are read behind it.
      obtain ⟨c, digits, rfl, hdigits⟩ := exists_cons_of_length hlength
      obtain ⟨high, low, hhigh, hlow, rfl⟩ := number?_cons_eq_some_iff.1 hn
      refine @bodyBytes_escape (c :: digits) rest _ ?_
      have hread := readDigits_append hlow high rest
      rw [hdigits] at hread hle
      rw [List.cons_append, readEscape, letterByte?_of_octal hhigh, hhigh, hlength, hdigits]
      show (readDigits 8 2 high (digits ++ rest)).bind _ = _
      rw [hread]
      exact if_pos hle
  | @hex digits n hlength hn =>
      have hread := readDigits_append hn 0 rest
      rw [hlength, Nat.zero_mul, Nat.zero_add] at hread
      refine @bodyBytes_escape ('x' :: digits) rest _ ?_
      rw [List.cons_append, List.length_cons, hlength]
      show (do .ok ([UInt8.ofNat (← readDigits 16 2 0 (digits ++ rest))], 3)) = _
      rw [hread]
      rfl
  | @short digits n hlength hn hvalid =>
      refine @bodyBytes_escape ('u' :: digits) rest _ ?_
      rw [List.cons_append, readEscape_codePoint (fun _ => rfl) hlength hn,
        codePointBytes_of_isValidChar hvalid]
      rfl
  | @long digits n hlength hn hvalid =>
      refine @bodyBytes_escape ('U' :: digits) rest _ ?_
      rw [List.cons_append, readEscape_codePoint (fun _ => rfl) hlength hn,
        codePointBytes_of_isValidChar hvalid]
      rfl

theorem Body.bodyBytes_append {body : Text} {bytes : List UInt8} (h : Body body bytes)
    (rest : Text) : bodyBytes (body ++ rest) = (bodyBytes rest).map (bytes ++ ·) := by
  induction h with
  | nil =>
      rw [List.nil_append]
      cases bodyBytes rest <;> rfl
  | @cons element body bytes later helement _ ih =>
      rw [List.append_assoc, helement.bodyBytes_append, ih]
      cases bodyBytes rest with
      | error fault => rfl
      | ok last => exact congrArg Except.ok (List.append_assoc bytes later last).symm

theorem Body.bodyBytes_eq {body : Text} {bytes : List UInt8} (h : Body body bytes) :
    bodyBytes body = .ok bytes := by
  have happend := h.bodyBytes_append []
  rw [List.append_nil, bodyBytes] at happend
  rw [happend]
  exact congrArg Except.ok (List.append_nil bytes)

theorem body?_quoted (quote : Char) (body : Text) :
    body? quote (quote :: (body ++ [quote])) = some body := by
  rw [body?, if_pos ⟨rfl, List.getLast?_concat⟩, List.dropLast_concat]

theorem body?_of_ne {quote c : Char} (h : c ≠ quote) (s : Text) : body? quote (c :: s) = none := by
  rw [body?, if_neg fun hand => h hand.1]

/-- Decoding undoes every spelling. -/
theorem Spells.value_eq {literal decoded : Text} (h : Spells literal decoded) :
    value literal = .ok decoded := by
  cases h with
  | @interpreted body decoded hbody =>
      have hdecode : (decoded.flatMap String.utf8EncodeChar).toByteArray.utf8Decode? =
          some decoded.toArray := List.utf8Decode?_utf8Encode
      rw [value, body?_quoted, body?_of_ne (by decide)]
      simp only [interpretedValue, hbody.bodyBytes_eq, hdecode]
  | @raw body hbody =>
      rw [value, body?_of_ne (by decide), body?_quoted]
      simp only [rawValue]
      rw [if_neg (by simpa using hbody)]

theorem exists_element (c : Char) : ∃ element, Element element (String.utf8EncodeChar c) := by
  by_cases hquote : c = '"'
  · subst hquote
    exact ⟨_, @Element.letter '"' 34 (by decide)⟩
  by_cases hslash : c = '\\'
  · subst hslash
    exact ⟨_, @Element.letter '\\' 92 (by decide)⟩
  by_cases hnewline : c = '\n'
  · subst hnewline
    exact ⟨_, @Element.letter 'n' 10 (by decide)⟩
  exact ⟨[c], .plain hquote hslash hnewline⟩

theorem exists_spells (decoded : Text) : ∃ literal, Spells literal decoded := by
  have hbody : ∃ body, Body body (decoded.flatMap String.utf8EncodeChar) := by
    induction decoded with
    | nil => exact ⟨[], .nil⟩
    | cons c decoded ih =>
        obtain ⟨body, hbody⟩ := ih
        obtain ⟨element, helement⟩ := exists_element c
        exact ⟨element ++ body, .cons helement hbody⟩
  obtain ⟨body, hbody⟩ := hbody
  exact ⟨_, .interpreted hbody⟩

end AllowedValues.Literal
