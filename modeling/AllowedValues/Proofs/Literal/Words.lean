import AllowedValues.Proofs.Literal.Stages

/-!
Decoding in words of 32 bits. The number of the digits of an escape never leaves a word, because
the longest escape has eight digits to the base sixteen, and so each step with words agrees with
the same step with unbounded numbers: literals have the same values and the same faults.
-/

namespace AllowedValues.Literal

instance : Arithmetic UInt32 where
  ofNat := UInt32.ofNat
  toNat := UInt32.toNat
  toByte := UInt32.toUInt8

theorem toNat_withDigit {radix digit : Nat} {value : UInt32}
    (h : value.toNat * radix + digit < 2 ^ 32) :
    (withDigit radix value digit).toNat = withDigit radix value.toNat digit := by
  show (value * UInt32.ofNat radix + UInt32.ofNat digit).toNat = value.toNat * radix + digit
  rw [UInt32.toNat_add, UInt32.toNat_mul, UInt32.toNat_ofNat', UInt32.toNat_ofNat',
    Nat.mul_mod_mod, Nat.mod_add_mod, Nat.add_mod_mod, Nat.mod_eq_of_lt h]

theorem toNat_octal {first : Char} (h : '0' ≤ first ∧ first ≤ '7') :
    48 ≤ first.toNat ∧ first.toNat ≤ 55 :=
  ⟨Char.le_def.1 h.1, Char.le_def.1 h.2⟩

theorem toNat_octalNumber {first : Char} (hfirst : '0' ≤ first ∧ first ≤ '7') {low : UInt32}
    (hlow : low.toNat < 64) : (octalNumber first low).toNat = octalNumber first low.toNat := by
  obtain ⟨hge, hle⟩ := toNat_octal hfirst
  show ((UInt32.ofNat first.toNat - UInt32.ofNat 48) * UInt32.ofNat 64 + low).toNat =
    (first.toNat - 48) * 64 + low.toNat
  rw [UInt32.toNat_add, UInt32.toNat_mul, UInt32.toNat_sub, UInt32.toNat_ofNat',
    UInt32.toNat_ofNat', UInt32.toNat_ofNat']
  omega

/-- What is known in an escape of which some digits are taken: no computation with their number
leaves a word, and no conversion to a byte loses a bit. -/
structure ExactDigits (escape : NumericEscape) (taken : Nat) (value : UInt32) : Prop where
  taken_le : taken ≤ escape.width
  value_lt : value.toNat < escape.radix ^ taken
  /-- There is room for the next digit, whichever it is. -/
  next_le : taken < escape.width → ∀ digit < escape.radix,
    value.toNat * escape.radix + digit ≤ 2 ^ 32 - 1
  octal_le : ∀ first isOctal, escape = .octal first isOctal → taken = escape.width →
    (first.toNat - '0'.toNat) * 64 + value.toNat ≤ 511
  /-- An octal number that is accepted is the byte that is made of it. -/
  octal_byte : ∀ first isOctal, escape = .octal first isOctal → taken = escape.width →
    (first.toNat - '0'.toNat) * 64 + value.toNat ≤ 255 →
      (Arithmetic.toByte (octalNumber first value)).toNat =
        (first.toNat - '0'.toNat) * 64 + value.toNat
  hex_byte : escape = .hex → taken = escape.width →
    (Arithmetic.toByte value).toNat = value.toNat

/-- The digits of every escape fit into a word, and those of the longest escape fill it. -/
theorem NumericEscape.radix_pow_le (escape : NumericEscape) {taken : Nat}
    (h : taken ≤ escape.width) : escape.radix ^ taken ≤ 2 ^ 32 := by
  have hbase : 0 < escape.radix ∧ escape.radix ^ escape.width ≤ 2 ^ 32 := by
    cases escape <;> simp [radix, width]
  exact (Nat.pow_le_pow_right hbase.1 h).trans hbase.2

theorem withDigit_lt {radix taken value digit : Nat} (hvalue : value < radix ^ taken)
    (hdigit : digit < radix) : withDigit radix value digit < radix ^ (taken + 1) :=
  calc
    value * radix + digit < value * radix + radix := Nat.add_lt_add_left hdigit _
    _ = (value + 1) * radix := by rw [Nat.add_mul, Nat.one_mul]
    _ ≤ radix ^ taken * radix := Nat.mul_le_mul_right radix hvalue
    _ = radix ^ (taken + 1) := (Nat.pow_succ ..).symm

theorem toNat_toByte {value : UInt32} (h : value.toNat ≤ 255) :
    (Arithmetic.toByte value).toNat = value.toNat := by
  show value.toUInt8.toNat = _
  rw [UInt32.toNat_toUInt8]
  omega

/-- All of it follows from the bounds on the digits and their number. -/
theorem ExactDigits.of_lt {escape : NumericEscape} {taken : Nat} {value : UInt32}
    (htaken : taken ≤ escape.width) (hvalue : value.toNat < escape.radix ^ taken) :
    ExactDigits escape taken value where
  taken_le := htaken
  value_lt := hvalue
  next_le := by
    intro hmore digit hdigit
    exact Nat.le_sub_one_of_lt ((withDigit_lt hvalue hdigit).trans_le (escape.radix_pow_le hmore))
  octal_le := by
    rintro first isOctal rfl rfl
    have hlow : value.toNat < 64 := hvalue
    have hle := (toNat_octal isOctal).2
    show (first.toNat - 48) * 64 + value.toNat ≤ 511
    omega
  octal_byte := by
    rintro first isOctal rfl rfl hbyte
    have hnumber := toNat_octalNumber isOctal hvalue
    rw [toNat_toByte (hnumber.trans_le hbyte), hnumber]
    rfl
  hex_byte := by
    rintro rfl rfl
    exact toNat_toByte (Nat.le_of_lt_succ hvalue)

namespace ExactDigits

variable {escape : NumericEscape} {taken : Nat} {value : UInt32}

theorem zero (escape : NumericEscape) : ExactDigits escape 0 (Arithmetic.ofNat 0) :=
  .of_lt (Nat.zero_le _) Nat.one_pos

theorem toNat_withDigit (h : ExactDigits escape taken value) (hmore : taken < escape.width)
    {digit : Nat} (hdigit : digit < escape.radix) :
    (withDigit escape.radix value digit).toNat = withDigit escape.radix value.toNat digit :=
  Literal.toNat_withDigit (Nat.lt_of_le_sub_one (by decide) (h.next_le hmore digit hdigit))

theorem succ (h : ExactDigits escape taken value) (hmore : taken < escape.width) {digit : Nat}
    (hdigit : digit < escape.radix) :
    ExactDigits escape (taken + 1) (withDigit escape.radix value digit) := by
  refine .of_lt hmore ?_
  rw [h.toNat_withDigit hmore hdigit]
  exact withDigit_lt h.value_lt hdigit

/-- Once all digits are taken, an escape stands for the same bytes, or has the same fault, as
without a bound on numbers. -/
theorem bytes_eq (h : ExactDigits escape taken value) (htaken : taken = escape.width) :
    escape.bytes value = escape.bytes value.toNat := by
  cases escape with
  | octal first isOctal =>
      have hlow : value.toNat < 64 := by
        have hvalue := h.value_lt
        rwa [htaken] at hvalue
      have hnumber := toNat_octalNumber isOctal hlow
      show (if (octalNumber first value).toNat ≤ 255 then
          Except.ok [UInt8.ofNat (octalNumber first value).toNat]
        else Except.error (Fault.octalOutOfRange (octalNumber first value).toNat)) = _
      rw [hnumber]
      rfl
  | hex => rfl
  | short => rfl
  | long => rfl

end ExactDigits

/-- A stage of decoding with words and one with unbounded numbers that are the same. What makes the
next stages the same again, that no number leaves its word, is part of it. -/
inductive Agrees : Stage UInt32 → Stage Nat → Prop
  | element (bytes : List UInt8) (rest : Text) : Agrees (.element bytes rest) (.element bytes rest)
  | digit {escape : NumericEscape} {taken : Nat} {value : UInt32} (bytes : List UInt8)
      (rest : Text) : ExactDigits escape taken value →
      Agrees (.digit escape taken value bytes rest) (.digit escape taken value.toNat bytes rest)
  | ended (outcome : Except Fault (List UInt8)) : Agrees (.ended outcome) (.ended outcome)

namespace Agrees

theorem backslash (bytes : List UInt8) (s : Text) :
    Agrees (.backslash bytes s) (.backslash bytes s) := by
  cases s with
  | nil => exact .ended _
  | cons c s =>
      rw [Stage.backslash, Stage.backslash]
      cases letterByte? c with
      | some byte => exact .element _ s
      | none =>
          cases NumericEscape.ofFirst? c with
          | some escape => exact .digit bytes s (.zero escape)
          | none => exact .ended _

theorem takeDigit {escape : NumericEscape} {taken : Nat} {value : UInt32}
    (h : ExactDigits escape taken value) (hmore : taken < escape.width) (bytes : List UInt8)
    (rest : Text) : Agrees (.takeDigit escape taken value bytes rest)
      (.takeDigit escape taken value.toNat bytes rest) := by
  cases rest with
  | nil => exact .ended _
  | cons c s =>
      rw [Stage.takeDigit, Stage.takeDigit]
      cases hdigit : digitValue? escape.radix c with
      | none => exact .ended _
      | some digit =>
          have hlt := digitValue?_lt hdigit
          dsimp only
          rw [← h.toNat_withDigit hmore hlt]
          exact .digit bytes s (h.succ hmore hlt)

theorem closeEscape {escape : NumericEscape} {taken : Nat} {value : UInt32}
    (h : ExactDigits escape taken value) (htaken : taken = escape.width) (bytes : List UInt8)
    (rest : Text) : Agrees (.closeEscape escape value bytes rest)
      (.closeEscape escape value.toNat bytes rest) := by
  rw [Stage.closeEscape, Stage.closeEscape, h.bytes_eq htaken]
  cases escape.bytes value.toNat with
  | error fault => exact .ended _
  | ok more => exact .element _ rest

/-- A step with words agrees with the step with unbounded numbers. -/
theorem next {s : Stage UInt32} {t : Stage Nat} (h : Agrees s t) : Agrees s.next t.next := by
  cases h with
  | element bytes rest =>
      cases rest with
      | nil => exact .ended _
      | cons c s =>
          rw [Stage.next, Stage.next]
          split_ifs
          · exact .ended _
          · exact .ended _
          · exact .backslash bytes s
          · exact .element _ s
  | @digit escape taken value bytes rest hexact =>
      rw [Stage.next, Stage.next]
      split_ifs with hmore
      · exact .takeDigit hexact hmore bytes rest
      · have htaken := Nat.le_antisymm hexact.taken_le (Nat.le_of_not_lt hmore)
        exact .closeEscape hexact htaken bytes rest
  | ended outcome => exact .ended outcome

theorem iterate {s : Stage UInt32} {t : Stage Nat} (h : Agrees s t) (n : Nat) :
    Agrees (Stage.next^[n] s) (Stage.next^[n] t) := by
  induction n with
  | zero => exact h
  | succ n ih =>
      rw [Function.iterate_succ_apply', Function.iterate_succ_apply']
      exact ih.next

theorem exactDigits {s : Stage UInt32} {t : Stage Nat} (h : Agrees s t) {escape : NumericEscape}
    {taken : Nat} {value : UInt32} {bytes : List UInt8} {rest : Text}
    (hs : s = .digit escape taken value bytes rest) : ExactDigits escape taken value := by
  subst hs
  cases h with
  | digit _ _ hexact => exact hexact

theorem outcome_eq {s : Stage UInt32} {t : Stage Nat} (h : Agrees s t) : s.outcome = t.outcome := by
  fun_induction Stage.outcome s generalizing t with
  | case1 outcome =>
      cases h
      rw [Stage.outcome_ended]
  | case2 bytes rest ih => rw [ih h.next, Stage.outcome_next]
  | case3 escape taken value bytes rest ih => rw [ih h.next, Stage.outcome_next]

end Agrees

theorem agrees_start (body : Text) : Agrees (.start body) (.start body) :=
  .element [] body

theorem valueIn_uint32 (literal : Text) : valueIn UInt32 literal = valueIn Nat literal := by
  have hbody (body : Text) : interpretedValueIn UInt32 body = interpretedValueIn Nat body := by
    rw [interpretedValueIn, interpretedValueIn, (agrees_start body).outcome_eq]
  simp only [valueIn, hbody]

/-- Decoding in words is exact. Whenever some digits of an escape are taken, their number is below
the power of the base, the next digit does not carry it out of the word, and it becomes a byte
without a loss. So every stage agrees with the one that unbounded numbers lead to, the last stage
has the bytes of the body, and each literal has its value, or its fault. -/
theorem exactDigits_and_valueIn_eq (body literal : Text) :
    (∀ n escape taken value bytes rest,
      Stage.next^[n] (.start body) = .digit escape taken (value : UInt32) bytes rest →
        ExactDigits escape taken value) ∧
    (∀ n, Agrees (Stage.next^[n] (.start body)) (Stage.next^[n] (.start body))) ∧
    (∃ n, Stage.next^[n] (.start body : Stage UInt32) = .ended (bodyBytes body)) ∧
    valueIn UInt32 literal = valueIn Nat literal ∧ valueIn Nat literal = value literal := by
  refine ⟨fun n escape taken value bytes rest hstage => ?_, fun n => ?_, ?_,
    valueIn_uint32 literal, valueIn_nat literal⟩
  · exact ((agrees_start body).iterate n).exactDigits hstage
  · exact (agrees_start body).iterate n
  · obtain ⟨n, hended⟩ := (Stage.start body : Stage UInt32).exists_iterate_eq_ended
    rw [(agrees_start body).outcome_eq, Stage.outcome_start] at hended
    exact ⟨n, hended⟩

/-- The digits of the longest escape fill the word. -/
theorem exactDigits_and_valueIn_eq_longest :
    Stage.next^[9] (.start ['\\', 'U', 'f', 'f', 'f', 'f', 'f', 'f', 'f', 'f']) =
      .digit .long 8 (0xFFFFFFFF : UInt32) [] [] ∧
    ExactDigits .long 8 0xFFFFFFFF ∧
    valueIn UInt32 ['"', '\\', 'U', 'f', 'f', 'f', 'f', 'f', 'f', 'f', 'f', '"'] =
      .error (.invalidCodePoint (2 ^ 32 - 1)) := by
  have hstage : Stage.next^[9] (.start ['\\', 'U', 'f', 'f', 'f', 'f', 'f', 'f', 'f', 'f']) =
      .digit .long 8 (0xFFFFFFFF : UInt32) [] [] := by
    decide +kernel
  obtain ⟨hexact, -, -, hwords, hvalue⟩ := exactDigits_and_valueIn_eq
    ['\\', 'U', 'f', 'f', 'f', 'f', 'f', 'f', 'f', 'f']
    ['"', '\\', 'U', 'f', 'f', 'f', 'f', 'f', 'f', 'f', 'f', '"']
  refine ⟨hstage, hexact 9 _ _ _ _ _ hstage, ?_⟩
  rw [hwords, hvalue]
  decide +kernel

end AllowedValues.Literal
