import AllowedValues.Proofs.Source.Calls
import Mathlib.Data.List.Chain

/-!
Texts within longer texts. Where the tokens of a text stand among those of a longer one and are only
moved to later places, its calls stand among the calls of the longer one, moved likewise and with
the same arguments.
-/

namespace AllowedValues.Source

open Piece (cut? kinds spelling)

/-- A token so many bytes and so many tokens further on. -/
def Token.shift (bytes index : Nat) (t : Token) : Token :=
  { t with start := t.start + bytes, close := t.close.map (· + index) }

/-- A call so many bytes further on. -/
def Call.shift (bytes : Nat) (call : Call) : Call :=
  { call with start := call.start + bytes, stop := call.stop + bytes }

section Shift

variable (bytes index : Nat) (t : Token)

@[simp] theorem Token.shift_kind : (t.shift bytes index).kind = t.kind := rfl

@[simp] theorem Token.shift_text : (t.shift bytes index).text = t.text := rfl

@[simp] theorem Token.shift_start : (t.shift bytes index).start = t.start + bytes := rfl

@[simp] theorem Token.shift_close : (t.shift bytes index).close = t.close.map (· + index) := rfl

@[simp] theorem Token.shift_stop : (t.shift bytes index).stop = t.stop + bytes := by
  rw [Token.stop, Token.stop, Token.shift_start, Token.shift_text, Nat.add_right_comm]

@[simp] theorem Call.shift_start (call : Call) : (call.shift bytes).start = call.start + bytes :=
  rfl

@[simp] theorem Call.shift_stop (call : Call) : (call.shift bytes).stop = call.stop + bytes := rfl

theorem locate_add (start : Nat) (ps : List Piece) :
    locate (start + bytes) ps = (locate start ps).map (Token.shift bytes index) := by
  induction ps generalizing start with
  | nil => rfl
  | cons p ps ih =>
      cases hkind : p.kind? with
      | none =>
          rw [locate_cons_of_kind?_eq_none hkind, locate_cons_of_kind?_eq_none hkind,
            Nat.add_right_comm, ih]
      | some kind =>
          have hrole := Piece.role_eq_of_kind? hkind
          rw [locate_cons_of_code hrole, locate_cons_of_code hrole, Nat.add_right_comm, ih]
          rfl

end Shift

/-- A text with tokens of its own in a longer text. What comes after its tokens there takes no part
in a call that begins among them. -/
structure Embedded (source : Text) (ts : List Token) (text : Text) (own front last : List Token)
    (bytes : Nat) : Prop where
  tokens_own : tokens? text = some own
  tokens_eq : ts = front ++ (own.map (Token.shift bytes front.length) ++ last)
  exists_source_eq : ∃ before after, source = before ++ (text ++ after) ∧ before.byteSize = bytes
  last_head : ∀ t ∈ last.head?, t.kind = .comma ∨ ∃ b, t.kind = .closing b

/-- A part of a text that begins and ends between two pieces stands in it with tokens of its own, if
its brackets are balanced and a comma or a closing bracket comes after it. -/
theorem exists_embedded_of_split {source : Text} {ts front inner last : List Token}
    {before mid after : List Piece} (hts : tokens? source = some ts)
    (hsplit : ts = front ++ (inner ++ last)) (hcut : cut? source = some (before ++ (mid ++ after)))
    (hinner : inner.map Token.unmatched = locate (spelling before).byteSize mid)
    (hbalanced : Balanced (inner.map (·.kind)))
    (hlast : ∀ t ∈ last.head?, t.kind = .comma ∨ ∃ b, t.kind = .closing b) :
    ∃ own, Embedded source ts (spelling mid) own front last (spelling before).byteSize ∧
      inner = own.map (Token.shift (spelling before).byteSize front.length) := by
  obtain ⟨pieces, -, hcommas, hunits, hmatch⟩ := tokens?_eq_some_iff.1 hts
  have hkinds := kinds_eq_of_unmatched hinner
  have hsource : source = spelling before ++ (spelling mid ++ spelling after) := by
    rw [← Piece.spelling_of_cut? hcut, Piece.spelling_append, Piece.spelling_append]
  rw [kinds_eq_of_unmatched hunits, hsplit, List.map_append, List.map_append, ← hkinds]
    at hcommas hmatch
  rw [← hkinds] at hbalanced
  rw [hsource] at hcut
  have hcutMid := (Piece.cut?_of_append (Piece.cut?_of_append hcut rfl).2 rfl).1
  -- Commas are settled in every part, and the brackets of the part are matched by themselves.
  have hsettled : commasSettled (kinds mid) = true := by
    rw [commasSettled_iff_isChain] at hcommas ⊢
    exact hcommas.infix ⟨_, _, List.append_assoc _ _ _⟩
  obtain ⟨closes, hclosed, hcloses⟩ := hbalanced.exists_matchFrom_infix hmatch
  obtain ⟨own, hown, hownUnits, rfl⟩ := exists_tokens? hcutMid hsettled hclosed
  have hshift : inner = own.map (Token.shift (spelling before).byteSize front.length) := by
    refine eq_of_unmatched ?_ ?_
    · have hplace := locate_add (spelling before).byteSize front.length 0 mid
      rw [Nat.zero_add, ← hinner, ← hownUnits, List.map_map] at hplace
      rw [hplace, List.map_map]
      rfl
    · have hlength : (kinds mid).length = (inner.map (·.close)).length := by
        rw [hkinds, List.length_map, List.length_map]
      rw [List.map_append, List.map_append, List.drop_left' (by simp),
        List.take_left' hlength.symm, List.length_map, List.map_map] at hcloses
      rw [List.map_map, hcloses]
      rfl
  refine ⟨own, { tokens_own := hown, tokens_eq := ?_, exists_source_eq := ?_, last_head := hlast },
    hshift⟩
  · rw [hsplit, hshift]
  · exact ⟨spelling before, spelling after, hsource, rfl⟩

namespace Embedded

variable {source text package function : Text} {ts own front last : List Token} {bytes : Nat}
  (h : Embedded source ts text own front last bytes)

include h

theorem getElem?_add {m : Nat} (hm : m < own.length) :
    ts[m + front.length]? = own[m]?.map (Token.shift bytes front.length) := by
  rw [h.tokens_eq, List.getElem?_append_right (by omega), Nat.add_sub_cancel,
    List.getElem?_append_left (by simpa using hm), List.getElem?_map]

theorem slice_eq {head mid rest : List Token} {opening close : Token}
    (hsplit : own = head ++ opening :: (mid ++ close :: rest)) :
    source.slice (opening.stop + bytes) (close.start + bytes) =
      text.slice opening.stop close.start := by
  obtain ⟨pieces, hcut, -, htokens, -⟩ := tokens?_eq_some_iff.1 h.tokens_own
  rw [hsplit] at htokens
  obtain ⟨before, inner, after, hpieces, -, hopening, -, hclose, -⟩ := exists_pieces_around htokens
  obtain ⟨outside, behind, hsource, hbytes⟩ := h.exists_source_eq
  have htext : text = spelling before ++ opening.text ++
      (spelling inner ++ (close.text ++ spelling after)) := by
    rw [← Piece.spelling_of_cut? hcut, hpieces]
    simp [Token.piece]
  have hstop : opening.stop = Text.byteSize (spelling before ++ opening.text) := by
    rw [Token.stop, hopening, Text.byteSize_append]
  have hwhole : source = outside ++ (spelling before ++ opening.text) ++
      (spelling inner ++ (close.text ++ spelling after ++ behind)) := by
    rw [hsource, htext]
    simp
  have hplace : opening.stop + bytes =
      Text.byteSize (outside ++ (spelling before ++ opening.text)) := by
    rw [Text.byteSize_append outside, hstop, hbytes, Nat.add_comm]
  rw [hclose, Nat.add_right_comm, hplace, hwhole, Text.slice_middle, htext, hstop,
    Text.slice_middle]

/-- No call begins in the part and goes on behind it. -/
theorem callAtHead?_of_short {us : List Token} (hne : us ≠ []) (hshort : us.length < 4) :
    callAtHead? source package function ts (us ++ last) = none := by
  rw [Option.eq_none_iff_forall_ne_some]
  intro call hcall
  obtain ⟨pkg, dot, name, opening, rest, j, close, heq, -, hdot, ⟨hname, -⟩, hopening, -⟩ :=
    exists_of_callAtHead? hcall
  have hstop {t : Token} {later : List Token} (hlast : last = t :: later) :
      t.kind = .comma ∨ ∃ b, t.kind = .closing b := h.last_head t (by rw [hlast]; rfl)
  match us with
  | [] => exact hne rfl
  | [_] =>
      obtain ⟨-, hlast⟩ := List.cons.inj heq
      have hkind := hstop hlast
      simp [hdot] at hkind
  | [_, _] =>
      obtain ⟨-, hlast⟩ := List.cons.inj (List.cons.inj heq).2
      have hkind := hstop hlast
      simp [hname] at hkind
  | [_, _, _] =>
      obtain ⟨-, hlast⟩ := List.cons.inj (List.cons.inj (List.cons.inj heq).2).2
      have hkind := hstop hlast
      simp [hopening] at hkind
  | _ :: _ :: _ :: _ :: _ =>
      simp only [List.length_cons] at hshort
      omega

theorem callAtHead?_eq {done us : List Token} (hown : own = done ++ us) (hne : us ≠ []) :
    callAtHead? source package function ts (us.map (Token.shift bytes front.length) ++ last) =
      (callAtHead? text package function own us).map (Call.shift bytes) := by
  match us with
  | [] => exact absurd rfl hne
  | [_] => exact h.callAtHead?_of_short (by simp) (by simp)
  | [_, _] => exact h.callAtHead?_of_short (by simp) (by simp)
  | [_, _, _] => exact h.callAtHead?_of_short (by simp) (by simp)
  | pkg :: dot :: name :: opening :: rest =>
      simp only [List.map_cons, List.cons_append, callAtHead?]
      split_ifs with hhead hhead' hhead'
      · rw [Token.shift_close]
        cases hclose : opening.close with
        | none => rfl
        | some j =>
            have hmatch := matchFrom_of_tokens? h.tokens_own
            have hsplit : own = done ++ [pkg, dot, name] ++ opening :: rest := by simp [hown]
            obtain ⟨close, hget⟩ := exists_getElem?_of_close hmatch hsplit hclose
            obtain ⟨mid, behind, rfl, -⟩ := exists_of_close hmatch hsplit hclose hget
            have hget' : ts[j + front.length]? = some (close.shift bytes front.length) := by
              obtain ⟨hj, -⟩ := List.getElem?_eq_some_iff.1 hget
              rw [h.getElem?_add hj, hget]
              rfl
            rw [Option.map_some, Option.bind_some, Option.bind_some, hget, hget', Option.map_some,
              Option.map_some, Option.map_some, Token.shift_start, Token.shift_stop,
              Token.shift_stop, Token.shift_start, h.slice_eq hsplit]
            rfl
      · exact absurd hhead hhead'
      · exact absurd hhead' hhead
      · rfl

/-- Read on from one of its tokens, the part has the same calls in both texts. -/
theorem exists_callsAfter_eq {done us : List Token} (hown : own = done ++ us)
    {previous previous' : Option Kind} (hprevious : previous = some .dot ↔ previous' = some .dot) :
    ∃ previous'', callsAfter source package function ts previous
        (us.map (Token.shift bytes front.length) ++ last) =
      (callsAfter text package function own previous' us).map (Call.shift bytes) ++
        callsAfter source package function ts previous'' last := by
  induction us generalizing done previous previous' with
  | nil => exact ⟨previous, rfl⟩
  | cons t us ih =>
      have hnext : own = (done ++ [t]) ++ us := by simp [hown]
      obtain ⟨previous'', hrest⟩ := ih hnext (Iff.refl (some t.kind = some .dot))
      have hhead : callAtHead? source package function ts
          (t.shift bytes front.length :: (us.map (Token.shift bytes front.length) ++ last)) =
            (callAtHead? text package function own (t :: us)).map (Call.shift bytes) :=
        h.callAtHead?_eq hown (by simp)
      refine ⟨previous'', ?_⟩
      rw [List.map_cons, List.cons_append, callsAfter, callsAfter, Token.shift_kind, hrest, hhead]
      by_cases hdot : previous' = some .dot
      · rw [if_pos (hprevious.2 hdot), if_pos hdot]
      · rw [if_neg (fun hdot' => hdot (hprevious.1 hdot')), if_neg hdot, Option.toList_map,
          List.map_append, List.append_assoc]

end Embedded

end AllowedValues.Source
