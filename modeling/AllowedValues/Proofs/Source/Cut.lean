import AllowedValues.Source.Piece
import AllowedValues.Proofs.Literal.Extent
import AllowedValues.Proofs.Unicode.Classes

/-!
Cutting a text into pieces. The pieces spell the text, a cutting of a longer text cuts the part
that some of its first pieces spell, and texts that are cut alike whatever comes next can be put
one after the other.
-/

namespace AllowedValues.Source.Piece

/-- What a piece that begins with `c` can be, and how far it reaches into the text after `c`. -/
inductive Reaches (c : Char) (s : Text) : Role → Nat → Prop
  | space : Unicode.isWhiteSpace c = true → Reaches c s .space 0
  | quoted {n : Nat} :
      c = '"' ∨ c = '\'' → Literal.closedLength? c s = some n → Reaches c s (.code .literal) n
  | raw {n : Nat} : c = '`' → Literal.rawLength? s = some n → Reaches c s (.code .literal) n
  | line : c = '/' → s.head? = some '/' → Reaches c s .comment (Literal.lineLength s)
  | block {n : Nat} : c = '/' → s.head? = some '*' →
      Literal.blockCommentLength? (s.drop 1) = some n → Reaches c s .comment (n + 1)
  | ident : isIdentifierStart c = true →
      Reaches c s (.code .ident) (s.takeWhile isIdentifierPart).length
  | number : isIdentifierStart c = false → c.isDigit = true →
      Reaches c s (.code .number) (s.takeWhile fun d => isIdentifierPart d || d = '.').length
  | single : Unicode.isWhiteSpace c = false → ¬ (c = '"' ∨ c = '\'') → c ≠ '`' →
      ¬ (c = '/' ∧ s.head? = some '/') → ¬ (c = '/' ∧ s.head? = some '*') →
      isIdentifierStart c = false → c.isDigit = false → Reaches c s (.code (Kind.ofChar c)) 0

theorem reaches_of_reach? {c : Char} {s : Text} {role : Role} {n : Nat}
    (h : reach? c s = some (role, n)) : Reaches c s role n := by
  rw [reach?] at h
  split_ifs at h with hspace hquote hraw hline hblock hident hdigit
  · cases h
    exact .space hspace
  · obtain ⟨m, hm, heq⟩ := Option.map_eq_some_iff.1 h
    cases heq
    exact .quoted hquote hm
  · obtain ⟨m, hm, heq⟩ := Option.map_eq_some_iff.1 h
    cases heq
    exact .raw hraw hm
  · cases h
    exact .line hline.1 hline.2
  · obtain ⟨m, hm, heq⟩ := Option.map_eq_some_iff.1 h
    cases heq
    exact .block hblock.1 hblock.2 hm
  · cases h
    exact .ident hident
  · cases h
    exact .number (Bool.eq_false_iff.2 hident) hdigit
  · cases h
    exact .single (Bool.eq_false_iff.2 hspace) hquote hraw hline hblock
      (Bool.eq_false_iff.2 hident) (Bool.eq_false_iff.2 hdigit)

theorem reach?_of_isWordPart {c : Char} (h : isWordPart c = true) (s : Text) :
    reach? c s =
      if isIdentifierStart c then some (.code .ident, (s.takeWhile isIdentifierPart).length)
      else if c.isDigit then
        some (.code .number, (s.takeWhile fun d => isIdentifierPart d || d = '.').length)
      else some (.code (Kind.ofChar c), 0) := by
  have hspace := isWhiteSpace_of_isWordPart h
  have hdouble : c ≠ '"' := ne_of_isWordPart h (by decide)
  have hsingle : c ≠ '\'' := ne_of_isWordPart h (by decide)
  have hraw : c ≠ '`' := ne_of_isWordPart h (by decide)
  have hslash : c ≠ '/' := ne_of_isWordPart h (by decide)
  simp [reach?, hspace, hdouble, hsingle, hraw, hslash]

theorem Reaches.reach?_eq {c : Char} {s : Text} {role : Role} {n : Nat} (h : Reaches c s role n) :
    reach? c s = some (role, n) := by
  cases h with
  | space hspace => rw [reach?, if_pos hspace]
  | quoted hquote hn =>
      have hspace : ¬ Unicode.isWhiteSpace c = true := by
        rcases hquote with rfl | rfl <;> decide
      rw [reach?, if_neg hspace, if_pos hquote, hn, Option.map_some]
  | raw hraw hn =>
      subst hraw
      rw [reach?, if_neg (by decide), if_neg (by decide), if_pos rfl, hn, Option.map_some]
  | line hslash hhead =>
      subst hslash
      rw [reach?, if_neg (by decide), if_neg (by decide), if_neg (by decide), if_pos ⟨rfl, hhead⟩]
  | block hslash hhead hn =>
      subst hslash
      rw [reach?, if_neg (by decide), if_neg (by decide), if_neg (by decide),
        if_neg (by simp [hhead]), if_pos ⟨rfl, hhead⟩, hn, Option.map_some]
  | ident hident =>
      rw [reach?_of_isWordPart (isWordPart_of_isIdentifierPart
        (isIdentifierPart_of_isIdentifierStart hident)), if_pos hident]
  | number hident hdigit =>
      rw [reach?_of_isWordPart (isWordPart_of_isIdentifierPart
        (isIdentifierPart_of_isDigit hdigit)), if_neg (by simp [hident]), if_pos hdigit]
  | single hspace hquote hraw hline hblock hident hdigit =>
      rw [reach?, if_neg (by simp [hspace]), if_neg hquote, if_neg hraw, if_neg hline,
        if_neg hblock, if_neg (by simp [hident]), if_neg (by simp [hdigit])]

theorem quote_ne_backslash {c : Char} (h : c = '"' ∨ c = '\'') : c ≠ '\\' := by
  rcases h with rfl | rfl <;> decide

theorem Reaches.le_length {c : Char} {s : Text} {role : Role} {n : Nat} (h : Reaches c s role n) :
    n ≤ s.length := by
  cases h with
  | space _ => exact Nat.zero_le _
  | quoted hquote hn =>
      obtain ⟨body, rest, rfl, -, rfl⟩ :=
        (Literal.closedLength?_eq_some_iff (quote_ne_backslash hquote)).1 hn
      simp
  | raw _ hn =>
      obtain ⟨body, rest, rfl, -, rfl⟩ := Literal.rawLength?_eq_some_iff.1 hn
      simp
  | line _ _ => exact (List.takeWhile_prefix _).length_le
  | block _ hhead hn =>
      obtain ⟨body, rest, hs, -, rfl⟩ := Literal.blockCommentLength?_eq_some_iff.1 hn
      have hlength := congrArg List.length hs
      simp only [List.length_drop, List.length_append, List.length_cons] at hlength
      omega
  | ident _ => exact (List.takeWhile_prefix _).length_le
  | number _ _ => exact (List.takeWhile_prefix _).length_le
  | single _ _ _ _ _ _ _ => exact Nat.zero_le _

theorem Reaches.of_closing {c : Char} {s : Text} {role : Role} {n : Nat} (h : Reaches c s role n)
    {b : Bracket} (hrole : role = .code (.closing b)) : Kind.ofChar c = .closing b ∧ n = 0 := by
  cases h <;> simp_all

theorem head?_of_append {s t : Text} (hs : s ≠ []) : (s ++ t).head? = s.head? := by
  cases s with
  | nil => exact absurd rfl hs
  | cons c s => rfl

/-- A piece that ends within the first part of a text does not depend on what comes after it. -/
theorem Reaches.of_append {c : Char} {s t : Text} {role : Role} {n : Nat}
    (h : Reaches c (s ++ t) role n) (hn : n ≤ s.length) : Reaches c s role n := by
  cases h with
  | space hspace => exact .space hspace
  | quoted hquote hclosed =>
      exact .quoted hquote (Literal.closedLength?_of_append (quote_ne_backslash hquote) hclosed hn)
  | raw hraw hclosed => exact .raw hraw (Literal.rawLength?_of_append hclosed hn)
  | line hslash hhead =>
      have hrun := Text.takeWhile_append_of_length_le hn
      -- Were `s` empty, its comment would take in the slash that `t` begins with.
      have hs : s ≠ [] := by
        rintro rfl
        cases t with
        | nil => simp at hhead
        | cons d t =>
            obtain rfl := Option.some.inj hhead
            simp [Literal.lineLength] at hn
      rw [head?_of_append hs] at hhead
      rw [Literal.lineLength, hrun]
      exact .line hslash hhead
  | block hslash hhead hclosed =>
      have hs : s ≠ [] := by
        rintro rfl
        simp at hn
      rw [head?_of_append hs] at hhead
      rw [List.drop_append_of_le_length (by omega)] at hclosed
      exact .block hslash hhead
        (Literal.blockCommentLength?_of_append hclosed (by rw [List.length_drop]; omega))
  | ident hident =>
      rw [Text.takeWhile_append_of_length_le hn]
      exact .ident hident
  | number hident hdigit =>
      rw [Text.takeWhile_append_of_length_le hn]
      exact .number hident hdigit
  | single hspace hquote hraw hline hblock hident hdigit =>
      have hhead (d : Char) (hd : s.head? = some d) : (s ++ t).head? = some d := by
        rw [List.head?_append, hd, Option.some_or]
      exact .single hspace hquote hraw (fun h => hline ⟨h.1, hhead _ h.2⟩)
        (fun h => hblock ⟨h.1, hhead _ h.2⟩) hident hdigit

/-- The kind of a code unit. White space and comments have none. -/
def kind? (p : Piece) : Option Kind :=
  match p.role with
  | .code kind => some kind
  | _ => none

def isCode (p : Piece) : Bool := p.kind?.isSome

/-- The kinds of the code units among pieces. -/
def kinds (ps : List Piece) : List Kind := ps.filterMap kind?

@[simp] theorem kinds_cons_code (kind : Kind) (text : Text) (ps : List Piece) :
    kinds (⟨.code kind, text⟩ :: ps) = kind :: kinds ps := rfl

@[simp] theorem kinds_append (ps qs : List Piece) : kinds (ps ++ qs) = kinds ps ++ kinds qs :=
  List.filterMap_append

/-- The text that pieces spell. -/
def spelling (ps : List Piece) : Text := ps.flatMap (·.text)

@[simp] theorem spelling_nil : spelling [] = [] := rfl

@[simp] theorem spelling_cons (p : Piece) (ps : List Piece) :
    spelling (p :: ps) = p.text ++ spelling ps := rfl

@[simp] theorem spelling_append (ps qs : List Piece) :
    spelling (ps ++ qs) = spelling ps ++ spelling qs := List.flatMap_append

@[simp] theorem cut?_nil : cut? [] = some [] := by rw [cut?]

theorem cut?_cons {c : Char} {s : Text} {role : Role} {n : Nat} (h : reach? c s = some (role, n)) :
    cut? (c :: s) = (cut? (s.drop n)).map (⟨role, c :: s.take n⟩ :: ·) := by
  rw [cut?, h]

theorem cut?_cons_eq_some_iff {c : Char} {s : Text} {ps : List Piece} :
    cut? (c :: s) = some ps ↔ ∃ role n rest, reach? c s = some (role, n) ∧
      cut? (s.drop n) = some rest ∧ ps = ⟨role, c :: s.take n⟩ :: rest := by
  constructor
  · intro h
    cases hreach : reach? c s with
    | none =>
        rw [cut?, hreach] at h
        exact absurd h (by simp)
    | some reached =>
        obtain ⟨role, n⟩ := reached
        rw [cut?_cons hreach] at h
        obtain ⟨rest, hrest, rfl⟩ := Option.map_eq_some_iff.1 h
        exact ⟨role, n, rest, rfl, hrest, rfl⟩
  · rintro ⟨role, n, rest, hreach, hrest, rfl⟩
    rw [cut?_cons hreach, hrest, Option.map_some]

theorem spelling_of_cut? {s : Text} {ps : List Piece} (h : cut? s = some ps) : spelling ps = s := by
  match s with
  | [] =>
      rw [cut?_nil] at h
      rw [← Option.some.inj h, spelling_nil]
  | c :: s =>
      obtain ⟨role, n, rest, -, hrest, rfl⟩ := cut?_cons_eq_some_iff.1 h
      rw [spelling_cons, spelling_of_cut? hrest, List.cons_append, List.take_append_drop]
termination_by s.length
decreasing_by simp only [List.length_cons, List.length_drop]; omega

theorem exists_reach?_of_mem_cut? {s : Text} {ps : List Piece} (h : cut? s = some ps) {p : Piece}
    (hp : p ∈ ps) : ∃ c t n, reach? c t = some (p.role, n) ∧ p.text = c :: t.take n := by
  match s with
  | [] =>
      rw [cut?_nil] at h
      rw [← Option.some.inj h] at hp
      exact absurd hp (by simp)
  | c :: s =>
      obtain ⟨role, n, rest, hreach, hrest, rfl⟩ := cut?_cons_eq_some_iff.1 h
      rcases List.mem_cons.1 hp with rfl | hp
      · exact ⟨c, s, n, hreach, rfl⟩
      · exact exists_reach?_of_mem_cut? hrest hp
termination_by s.length
decreasing_by simp only [List.length_cons, List.length_drop]; omega

/-- The first pieces of a text cut the part that they spell, and the others cut the rest. -/
theorem cut?_of_append {s t : Text} {ps qs : List Piece} (h : cut? (s ++ t) = some (ps ++ qs))
    (hs : spelling ps = s) : cut? s = some ps ∧ cut? t = some qs := by
  induction ps generalizing s with
  | nil =>
      obtain rfl := hs
      exact ⟨cut?_nil, h⟩
  | cons p ps ih =>
      cases s with
      | nil =>
          obtain ⟨c, u, n, -, htext⟩ := exists_reach?_of_mem_cut? h (List.mem_cons_self ..)
          simp [htext] at hs
      | cons c s =>
          rw [List.cons_append, List.cons_append] at h
          obtain ⟨role, n, rest, hreach, hrest, heq⟩ := cut?_cons_eq_some_iff.1 h
          obtain ⟨rfl, rfl⟩ := List.cons.inj heq
          have hn := (reaches_of_reach? hreach).le_length
          simp only [spelling_cons, List.cons_append, List.cons.injEq, true_and] at hs
          -- The piece is part of what spells `s`, so it ends within `s`.
          have hle : n ≤ s.length := by
            have hlength := congrArg List.length hs
            rw [List.length_append, List.length_take, Nat.min_eq_left hn] at hlength
            omega
          have htake : (s ++ t).take n = s.take n := List.take_append_of_le_length hle
          have hdrop : (s ++ t).drop n = s.drop n ++ t := List.drop_append_of_le_length hle
          rw [htake] at hs ⊢
          rw [hdrop] at hrest
          have hps : spelling ps = s.drop n := by
            have hdrop := congrArg (List.drop n) hs
            rwa [List.drop_left' (List.length_take_of_le hle)] at hdrop
          obtain ⟨hcut, htail⟩ := ih hrest hps
          have hreach' := ((reaches_of_reach? hreach).of_append hle).reach?_eq
          exact ⟨by rw [cut?_cons hreach', hcut, Option.map_some], htail⟩

/-- The text is cut into these pieces when `rest` comes after it. -/
def CutsBefore (s : Text) (ps : List Piece) (rest : Text) : Prop :=
  cut? (s ++ rest) = (cut? rest).map (ps ++ ·)

theorem CutsBefore.nil (rest : Text) : CutsBefore [] [] rest := by
  simp [CutsBefore]

theorem CutsBefore.append {s t rest : Text} {ps qs : List Piece} (hs : CutsBefore s ps (t ++ rest))
    (ht : CutsBefore t qs rest) : CutsBefore (s ++ t) (ps ++ qs) rest := by
  rw [CutsBefore] at hs ht ⊢
  rw [List.append_assoc, hs, ht, Option.map_map]
  simp only [Function.comp_def, List.append_assoc]

theorem CutsBefore.piece {c : Char} {s rest : Text} {role : Role}
    (h : Reaches c (s ++ rest) role s.length) : CutsBefore (c :: s) [⟨role, c :: s⟩] rest := by
  rw [CutsBefore, List.cons_append, cut?_cons h.reach?_eq, List.drop_left, List.take_left]
  rfl

theorem CutsBefore.cut?_eq {s : Text} {ps : List Piece} (h : CutsBefore s ps []) :
    cut? s = some ps := by
  simpa [CutsBefore] using h

end AllowedValues.Source.Piece
