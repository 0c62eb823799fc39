import AllowedValues.Proofs.Literal.Outcome
import Mathlib.Logic.Function.Iterate

/-!
Decoding step by step. A stage says how far the decoding of a quoted body has come, and in the
middle of an escape it has the number of the digits taken so far. What the numbers are is left
open: the same steps are made with unbounded numbers and with machine words. With unbounded numbers
they lead to the bytes of the body.
-/

namespace AllowedValues.Literal

/-- Numbers to decode with, and the conversions between them, unbounded numbers and bytes. -/
class Arithmetic (Number : Type) extends Add Number, Sub Number, Mul Number where
  ofNat : Nat → Number
  toNat : Number → Nat
  toByte : Number → UInt8

instance : Arithmetic Nat where
  ofNat n := n
  toNat n := n
  toByte := UInt8.ofNat

/-- An escape with a number, as its first character tells it. That of an octal escape is the first
of its digits. -/
inductive NumericEscape where
  | octal (first : Char) (isOctal : '0' ≤ first ∧ first ≤ '7')
  | hex
  | short
  | long
deriving DecidableEq

namespace NumericEscape

def ofFirst? (c : Char) : Option NumericEscape :=
  if isOctal : '0' ≤ c ∧ c ≤ '7' then some (octal c isOctal)
  else if c = 'x' then some hex
  else if c = 'u' then some short
  else if c = 'U' then some long
  else none

def radix : NumericEscape → Nat
  | octal _ _ => 8
  | _ => 16

/-- The number of digits after the first character. -/
def width : NumericEscape → Nat
  | octal _ _ => 2
  | hex => 2
  | short => 4
  | long => 8

end NumericEscape

section Steps

variable {Number : Type} [Arithmetic Number]

/-- A number with one more digit. -/
def withDigit (radix : Nat) (value : Number) (digit : Nat) : Number :=
  value * Arithmetic.ofNat radix + Arithmetic.ofNat digit

/-- The number of an octal escape, from its first digit and the number of the other two. -/
def octalNumber (first : Char) (low : Number) : Number :=
  (Arithmetic.ofNat first.toNat - Arithmetic.ofNat '0'.toNat) * Arithmetic.ofNat 64 + low

/-- The bytes of an escape, from the number of the digits after its first character. -/
def NumericEscape.bytes : NumericEscape → Number → Except Fault (List UInt8)
  | octal first _, low =>
      if Arithmetic.toNat (octalNumber first low) ≤ 255 then
        .ok [Arithmetic.toByte (octalNumber first low)]
      else .error (.octalOutOfRange (Arithmetic.toNat (octalNumber first low)))
  | hex, value => .ok [Arithmetic.toByte value]
  | short, value => codePointBytes (Arithmetic.toNat value)
  | long, value => codePointBytes (Arithmetic.toNat value)

/-- How far the decoding of a body has come. -/
inductive Stage (Number : Type) where
  /-- Before an element, with the bytes of those passed. -/
  | element (bytes : List UInt8) (rest : Text)
  /-- In an escape, with so many digits taken and their number. -/
  | digit (escape : NumericEscape) (taken : Nat) (value : Number) (bytes : List UInt8) (rest : Text)
  | ended (outcome : Except Fault (List UInt8))
deriving DecidableEq

namespace Stage

/-- After the backslash of an escape. -/
def backslash (bytes : List UInt8) : Text → Stage Number
  | [] => ended (.error .truncatedEscape)
  | c :: s =>
      match letterByte? c, NumericEscape.ofFirst? c with
      | some byte, _ => element (bytes ++ [byte]) s
      | none, some escape => digit escape 0 (Arithmetic.ofNat 0) bytes s
      | none, none => ended (.error (.invalidEscape c))

/-- One more digit of an escape is taken. -/
def takeDigit (escape : NumericEscape) (taken : Nat) (value : Number) (bytes : List UInt8) :
    Text → Stage Number
  | [] => ended (.error .truncatedEscape)
  | c :: s =>
      match digitValue? escape.radix c with
      | none => ended (.error (.invalidEscape c))
      | some d => digit escape (taken + 1) (withDigit escape.radix value d) bytes s

/-- An escape of which all digits are taken is passed. -/
def closeEscape (escape : NumericEscape) (value : Number) (bytes : List UInt8) (rest : Text) :
    Stage Number :=
  match escape.bytes value with
  | .error fault => ended (.error fault)
  | .ok more => element (bytes ++ more) rest

/-- One step of decoding. -/
def next : Stage Number → Stage Number
  | element bytes [] => ended (.ok bytes)
  | element bytes (c :: s) =>
      if c = '"' then ended (.error .unescapedQuote)
      else if c = '\n' then ended (.error .rawNewline)
      else if c = '\\' then backslash bytes s
      else element (bytes ++ String.utf8EncodeChar c) s
  | digit escape taken value bytes rest =>
      if taken < escape.width then takeDigit escape taken value bytes rest
      else closeEscape escape value bytes rest
  | ended outcome => ended outcome

/-- The steps left at most. -/
def weight : Stage Number → Nat
  | element _ rest => 2 * rest.length + 1
  | digit _ _ _ _ rest => 2 * rest.length + 2
  | ended _ => 0

theorem weight_backslash (bytes : List UInt8) (s : Text) :
    (backslash bytes s : Stage Number).weight ≤ 2 * s.length + 1 := by
  cases s with
  | nil => exact Nat.zero_le _
  | cons c s =>
      rw [backslash]
      split <;> simp only [weight, List.length_cons] <;> omega

theorem weight_next_element (bytes : List UInt8) (rest : Text) :
    (element bytes rest : Stage Number).next.weight <
      (element bytes rest : Stage Number).weight := by
  cases rest with
  | nil => exact Nat.succ_pos _
  | cons c s =>
      have hescape : (backslash bytes s : Stage Number).weight ≤ 2 * s.length + 1 :=
        weight_backslash bytes s
      rw [next]
      split_ifs <;> simp only [weight, List.length_cons] at hescape ⊢ <;> omega

theorem weight_next_digit (escape : NumericEscape) (taken : Nat) (value : Number)
    (bytes : List UInt8) (rest : Text) :
    (digit escape taken value bytes rest).next.weight <
      (digit escape taken value bytes rest).weight := by
  rw [next]
  split
  · cases rest with
    | nil => exact Nat.succ_pos _
    | cons c s =>
        rw [takeDigit]
        split <;> simp only [weight, List.length_cons] <;> omega
  · rw [closeEscape]
    split <;> simp only [weight] <;> omega

/-- What the steps from a stage on lead to. -/
def outcome : Stage Number → Except Fault (List UInt8)
  | ended result => result
  | element bytes rest => (element bytes rest : Stage Number).next.outcome
  | digit escape taken value bytes rest => (digit escape taken value bytes rest).next.outcome
termination_by s => s.weight
decreasing_by
  · exact weight_next_element bytes rest
  · exact weight_next_digit escape taken value bytes rest

theorem outcome_next (s : Stage Number) : s.next.outcome = s.outcome := by
  cases s with
  | element bytes rest => rw [outcome]
  | digit escape taken value bytes rest => rw [outcome]
  | ended result => rfl

@[simp]
theorem outcome_ended (result : Except Fault (List UInt8)) :
    (ended result : Stage Number).outcome = result := by
  rw [outcome]

theorem exists_iterate_eq_ended (s : Stage Number) : ∃ n, next^[n] s = ended s.outcome := by
  fun_induction outcome s with
  | case1 result => exact ⟨0, rfl⟩
  | case2 bytes rest ih =>
      obtain ⟨n, hn⟩ := ih
      exact ⟨n + 1, by rw [Function.iterate_succ_apply, hn]⟩
  | case3 escape taken value bytes rest ih =>
      obtain ⟨n, hn⟩ := ih
      exact ⟨n + 1, by rw [Function.iterate_succ_apply, hn]⟩

/-- The beginning of the decoding of a body. -/
def start (body : Text) : Stage Number := element [] body

end Stage

variable (Number)

/-- The value of a quoted body. Where there is nothing to decode in a body, it is its own value. -/
def interpretedValueIn (body : Text) : Except Fault Text :=
  if body.all fun c => c != '"' && c != '\\' && c != '\n' then .ok body
  else
    match (Stage.start body : Stage Number).outcome with
    | .error fault => .error fault
    | .ok bytes =>
        match bytes.toByteArray.utf8Decode? with
        | some characters => .ok characters.toList
        | none => .error .invalidUtf8

/-- The value of a literal, decoded with the given numbers. -/
def valueIn (literal : Text) : Except Fault Text :=
  match body? '"' literal, body? '`' literal with
  | some body, _ => interpretedValueIn Number body
  | none, some body => rawValue body
  | none, none => .error .missingQuotes

end Steps

section Unbounded

theorem digitValue?_lt {radix digit : Nat} {c : Char} (h : digitValue? radix c = some digit) :
    digit < radix := by
  rw [digitValue?, Option.filter_eq_some_iff] at h
  exact of_decide_eq_true h.2

theorem digitValue?_eight (c : Char) : digitValue? 8 c =
    if '0' ≤ c ∧ c ≤ '7' then some (c.toNat - '0'.toNat) else none := by
  have hle (d : Char) : d ≤ c ↔ d.toNat ≤ c.toNat := Char.le_def
  have hge (d : Char) : c ≤ d ↔ c.toNat ≤ d.toNat := Char.le_def
  have hdigit : c.isDigit = true ↔ 48 ≤ c.toNat ∧ c.toNat ≤ 57 := by
    rw [Char.isDigit, Bool.and_eq_true, decide_eq_true_eq, decide_eq_true_eq]
    exact and_congr UInt32.le_iff_toNat_le UInt32.le_iff_toNat_le
  simp only [digitValue?, hle, hge, hdigit, Char.reduceToNat]
  by_cases hoctal : 48 ≤ c.toNat ∧ c.toNat ≤ 55
  · rw [if_pos hoctal, if_pos (by omega), Option.filter_some, if_pos (decide_eq_true (by omega))]
  · rw [if_neg hoctal, Option.filter_eq_none_iff]
    intro value hvalue
    rw [decide_eq_true_eq]
    split_ifs at hvalue <;> cases hvalue <;> omega

theorem readDigits_eq_map (radix count value : Nat) (s : Text) :
    readDigits radix count value s =
      (readDigits radix count 0 s).map (value * radix ^ count + ·) := by
  induction count generalizing value s with
  | zero => simp [readDigits, Except.map]
  | succ count ih =>
      cases s with
      | nil => rfl
      | cons c s =>
          rw [readDigits, readDigits]
          cases digitValue? radix c with
          | none => rfl
          | some digit =>
              dsimp only
              rw [ih (value * radix + digit), ih (0 * radix + digit)]
              cases readDigits radix count 0 s with
              | error fault => rfl
              | ok n =>
                  refine congrArg Except.ok ?_
                  dsimp only
                  rw [Nat.pow_succ, Nat.add_mul, Nat.add_mul, Nat.zero_mul, Nat.zero_mul,
                    Nat.zero_add, Nat.mul_assoc, Nat.mul_comm radix, Nat.add_assoc]

/-- An escape with a number is read as its digits, and then as what their number stands for. -/
theorem readEscape_of_ofFirst? {c : Char} {escape : NumericEscape}
    (h : NumericEscape.ofFirst? c = some escape) (s : Text) :
    readEscape (c :: s) = (readDigits escape.radix escape.width 0 s).bind fun value =>
      (escape.bytes value).map fun bytes => (bytes, escape.width + 1) := by
  rw [NumericEscape.ofFirst?] at h
  split_ifs at h with hoctal hx hu hU
  · cases h
    have hdigit : digitValue? 8 c = some (c.toNat - '0'.toNat) := by
      rw [digitValue?_eight, if_pos hoctal]
    rw [readEscape, letterByte?_of_octal hdigit, hdigit]
    show (readDigits 8 2 _ s).bind _ = (readDigits 8 2 0 s).bind _
    -- `readEscape` reads the other two digits behind the first; here the first is added at the end.
    rw [readDigits_eq_map]
    cases readDigits 8 2 0 s with
    | error fault => rfl
    | ok low =>
        show (if octalNumber c low ≤ 255 then
            Except.ok ([UInt8.ofNat (octalNumber c low)], 3)
          else Except.error (Fault.octalOutOfRange (octalNumber c low))) =
          (if octalNumber c low ≤ 255 then Except.ok [UInt8.ofNat (octalNumber c low)]
          else Except.error (Fault.octalOutOfRange (octalNumber c low))).map fun bytes => (bytes, 3)
        split <;> rfl
  · cases h
    subst hx
    rfl
  · cases h
    subst hu
    rfl
  · cases h
    subst hU
    rfl

theorem readEscape_of_ofFirst?_eq_none {c : Char} (hletter : letterByte? c = none)
    (h : NumericEscape.ofFirst? c = none) (s : Text) :
    readEscape (c :: s) = .error (.invalidEscape c) := by
  rw [NumericEscape.ofFirst?] at h
  split_ifs at h with hoctal hx hu hU
  rw [readEscape, hletter, digitValue?_eight, if_neg hoctal]
  simp only [if_neg hx, if_neg hu, if_neg hU]

namespace Stage

/-- From within an escape the steps lead on to the digits that are left, and then past it. -/
theorem outcome_digit {escape : NumericEscape} {taken : Nat} (h : taken ≤ escape.width)
    (value : Nat) (bytes : List UInt8) (rest : Text) :
    (digit escape taken value bytes rest).outcome =
      (readDigits escape.radix (escape.width - taken) value rest).bind fun value =>
        (escape.bytes value).bind fun more =>
          (element (bytes ++ more) (rest.drop (escape.width - taken)) : Stage Nat).outcome := by
  obtain ⟨missing, hmissing⟩ := Nat.exists_eq_add_of_le h
  rw [hmissing, Nat.add_sub_cancel_left]
  -- One step for each of the missing digits, and one more to pass the escape.
  induction missing generalizing taken value rest with
  | zero =>
      rw [← outcome_next, next, if_neg (by omega), closeEscape, readDigits]
      simp only [Except.bind]
      cases escape.bytes value with
      | error fault => exact outcome_ended (.error fault)
      | ok more => rfl
  | succ missing ih =>
      rw [← outcome_next, next, if_pos (by omega)]
      cases rest with
      | nil => simp [takeDigit, readDigits, Except.bind]
      | cons c s =>
          rw [takeDigit, readDigits]
          cases digitValue? escape.radix c with
          | none => simp [Except.bind]
          | some d => exact ih (by omega) _ s (by omega)

theorem outcome_backslash (bytes : List UInt8) (s : Text) :
    (backslash bytes s : Stage Nat).outcome = (readEscape s).bind fun read =>
      (element (bytes ++ read.1) (s.drop read.2) : Stage Nat).outcome := by
  cases s with
  | nil => simp [backslash, readEscape, Except.bind]
  | cons c s =>
      rw [backslash]
      cases hletter : letterByte? c with
      | some byte =>
          rw [readEscape, hletter]
          rfl
      | none =>
          cases hescape : NumericEscape.ofFirst? c with
          | some escape =>
              show (digit escape 0 (0 : Nat) bytes s).outcome = _
              rw [readEscape_of_ofFirst? hescape, outcome_digit (Nat.zero_le _), Nat.sub_zero]
              cases readDigits escape.radix escape.width 0 s with
              | error fault => rfl
              | ok value =>
                  simp only [Except.bind]
                  cases escape.bytes value <;> rfl
          | none =>
              rw [outcome_ended, readEscape_of_ofFirst?_eq_none hletter hescape]
              rfl

theorem map_append (bytes more : List UInt8) (read : Except Fault (List UInt8)) :
    read.map (bytes ++ more ++ ·) = (read.map (more ++ ·)).map (bytes ++ ·) := by
  cases read with
  | error fault => rfl
  | ok later => exact congrArg Except.ok (List.append_assoc bytes more later)

/-- With unbounded numbers the steps lead to the bytes of the body. -/
theorem outcome_element (bytes : List UInt8) (body : Text) :
    (element bytes body : Stage Nat).outcome = (bodyBytes body).map (bytes ++ ·) := by
  fun_induction bodyBytes body generalizing bytes with
  | case1 =>
      rw [← outcome_next, next, outcome_ended]
      exact congrArg Except.ok (List.append_nil bytes).symm
  | case2 s =>
      rw [← outcome_next, next, if_pos rfl, outcome_ended]
      rfl
  | case3 s hquote =>
      rw [← outcome_next, next, if_neg hquote, if_pos rfl, outcome_ended]
      rfl
  | case4 s fault hread hquote hnewline =>
      rw [← outcome_next, next, if_neg hquote, if_neg hnewline, if_pos rfl, outcome_backslash,
        hread]
      rfl
  | case5 s more n hread hquote hnewline ih =>
      rw [← outcome_next, next, if_neg hquote, if_neg hnewline, if_pos rfl, outcome_backslash,
        hread]
      simp only [Except.bind, ih]
      exact map_append bytes more _
  | case6 c s hquote hnewline hslash ih =>
      rw [← outcome_next, next, if_neg hquote, if_neg hnewline, if_neg hslash, ih]
      exact map_append bytes _ _

theorem outcome_start (body : Text) : (start body : Stage Nat).outcome = bodyBytes body := by
  rw [start, outcome_element]
  cases bodyBytes body <;> rfl

end Stage

theorem body_of_plain {body : Text}
    (h : (body.all fun c => c != '"' && c != '\\' && c != '\n') = true) :
    Body body (body.flatMap String.utf8EncodeChar) := by
  induction body with
  | nil => exact .nil
  | cons c body ih =>
      simp only [List.all_cons, Bool.and_eq_true, bne_iff_ne] at h
      obtain ⟨⟨⟨hquote, hslash⟩, hnewline⟩, hbody⟩ := h
      exact .cons (.plain hquote hslash hnewline) (ih hbody)

theorem interpretedValueIn_nat (body : Text) :
    interpretedValueIn Nat body = interpretedValue body := by
  rw [interpretedValueIn]
  split
  · rename_i hplain
    exact (interpretedValue_eq_ok_iff.2 (body_of_plain hplain)).symm
  · rw [Stage.outcome_start]
    rfl

theorem valueIn_nat (literal : Text) : valueIn Nat literal = value literal := by
  simp only [valueIn, interpretedValueIn_nat]
  rfl

end Unbounded

end AllowedValues.Literal
