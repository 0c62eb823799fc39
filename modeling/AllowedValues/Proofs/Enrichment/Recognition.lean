import AllowedValues.Proofs.Enrichment.RoundTrip
import AllowedValues.Proofs.Source.Grammar

/-!
Which calls can be recognised at all. The settings accept a name as an identifier if and only if a
text that is nothing but the name has the name for its only token, and they accept two names if and
only if there is a source text with a call of the one in the other.
-/

namespace AllowedValues

namespace Source

open Piece (CutsBefore IsUnit)

theorem Kind.ofChar_ne_ident (c : Char) : Kind.ofChar c ≠ .ident := by
  rw [Kind.ofChar]
  split_ifs
  · exact Kind.noConfusion
  · exact Kind.noConfusion
  · split <;> exact Kind.noConfusion

theorem Piece.IsUnit.isIdentifier {text : Text} (h : IsUnit (.code .ident) text) :
    text.isIdentifier = true := by
  generalize hrole : Piece.Role.code .ident = role at h
  cases h with
  | ident hname => exact hname
  | mark _ => exact absurd (Piece.Role.code.inj hrole).symm (Kind.ofChar_ne_ident _)
  | _ => cases hrole

variable {source package function text : Text} {ts : List Token} {t : Token}

theorem isIdentifier_of_mem_tokens? (hts : tokens? source = some ts) (ht : t ∈ ts)
    (hkind : t.kind = .ident) : t.text.isIdentifier = true := by
  obtain ⟨pieces, hcut, -, hunits, -⟩ := tokens?_eq_some_iff.1 hts
  obtain ⟨c, rest, n, hreach, htext⟩ := Piece.exists_reach?_of_mem_cut? hcut
    (bounds_of_mem_locate (mem_locate_of_unmatched hunits ht)).1
  have hunit := (Piece.reaches_of_reach? hreach).isUnit
  rw [← htext] at hunit
  have hrole : t.unmatched.piece.role = .code .ident := congrArg Piece.Role.code hkind
  rw [hrole] at hunit
  exact hunit.isIdentifier

theorem isIdentifier_of_calls_ne_nil (h : calls package function source ≠ []) :
    package.isIdentifier = true ∧ function.isIdentifier = true := by
  obtain ⟨call, hcall⟩ := List.exists_mem_of_ne_nil _ h
  unfold calls at hcall
  split at hcall
  · cases hcall
  · next ts hts =>
      obtain ⟨front, rest, rfl, hhead⟩ := exists_of_mem_callsAfter hcall
      obtain ⟨pkg, dot, name, opening, rest, j, close, rfl, ⟨hpkg, rfl⟩, -, ⟨hname, rfl⟩, -⟩ :=
        exists_of_callAtHead? hhead
      exact ⟨isIdentifier_of_mem_tokens? hts (by simp) hpkg,
        isIdentifier_of_mem_tokens? hts (by simp) hname⟩

theorem exists_calls_ne_nil (hpackage : package.isIdentifier = true)
    (hfunction : function.isIdentifier = true) : ∃ source, calls package function source ≠ [] := by
  obtain ⟨source, hsource⟩ := exists_spellsCall package function []
  obtain ⟨call, hcalls, -⟩ := hsource.exists_calls_eq hpackage hfunction
  exact ⟨source, by rw [hcalls]; exact List.cons_ne_nil _ _⟩

theorem tokens?_of_isIdentifier (h : text.isIdentifier = true) :
    tokens? text = some [{ kind := .ident, start := 0, text }] := by
  have hcuts : CutsBefore text [⟨.code .ident, text⟩] [] :=
    Argument.cutsBefore_name h fun _ hd => by cases hd
  exact tokens?_eq_some_iff.2 ⟨_, hcuts.cut?_eq, rfl, rfl, rfl⟩

/-- A text is an identifier if and only if an identifier is its only token and takes up all of
it. -/
theorem isIdentifier_iff_tokens? : text.isIdentifier = true ↔
    ∃ t, tokens? text = some [t] ∧ t.kind = .ident ∧ t.start = 0 ∧ t.stop = text.byteSize := by
  constructor
  · intro h
    exact ⟨_, tokens?_of_isIdentifier h, rfl, rfl, Nat.zero_add _⟩
  · rintro ⟨t, hts, hkind, hstart, hstop⟩
    obtain ⟨pieces, hcut, -, hunits, -⟩ := tokens?_eq_some_iff.1 hts
    have hlocate : locate 0 pieces = [] ++ t.unmatched :: [] := hunits.symm
    obtain ⟨before, after, rfl, -, hplace, -⟩ := exists_of_locate_eq_append_cons hlocate
    have hspelling := Piece.spelling_of_cut? hcut
    rw [Piece.spelling_append, Piece.spelling_cons] at hspelling
    -- Nothing is left of the text before the token and after it.
    have hsize := congrArg Text.byteSize hspelling
    have htext : t.unmatched.piece.text = t.text := rfl
    rw [Text.byteSize_append, Text.byteSize_append, htext, ← hstop, Token.stop, hstart] at hsize
    have hplace' : t.start = 0 + (Piece.spelling before).byteSize := hplace
    have hbefore : Piece.spelling before = [] := Text.eq_nil_of_byteSize_eq_zero (by omega)
    have hafter : Piece.spelling after = [] := Text.eq_nil_of_byteSize_eq_zero (by omega)
    rw [hbefore, hafter, htext, List.nil_append, List.append_nil] at hspelling
    rw [← hspelling]
    exact isIdentifier_of_mem_tokens? hts List.mem_cons_self hkind

end Source

namespace Settings

/-- The names of the package and of the function are accepted. -/
def NamesAccepted (settings : Settings) : Prop :=
  ∀ field value, settings.fault? ≠ some (.notIdentifier field value)

theorem namesAccepted_iff {settings : Settings} : settings.NamesAccepted ↔
    settings.package.isIdentifier = true ∧ settings.function.isIdentifier = true := by
  rw [NamesAccepted, fault?]
  split_ifs with hpackage hfunction hdelimiter <;> simp_all

/-- Settings accept exactly the names for which there is a source text with a call to be found, and
a name by itself is one token if and only if it is accepted. -/
theorem exists_calls_iff_namesAccepted (settings : Settings) :
    ((∃ source, Source.calls settings.package settings.function source ≠ []) ↔
      settings.NamesAccepted) ∧
    (settings.NamesAccepted ↔
      settings.package.isIdentifier = true ∧ settings.function.isIdentifier = true) ∧
    ∀ text : Text, text.isIdentifier = true ↔ ∃ t, Source.tokens? text = some [t] ∧
      t.kind = .ident ∧ t.start = 0 ∧ t.stop = text.byteSize := by
  refine ⟨?_, namesAccepted_iff, fun text => Source.isIdentifier_iff_tokens?⟩
  rw [namesAccepted_iff]
  constructor
  · rintro ⟨source, hcalls⟩
    exact Source.isIdentifier_of_calls_ne_nil hcalls
  · rintro ⟨hpackage, hfunction⟩
    exact Source.exists_calls_ne_nil hpackage hfunction

end Settings

end AllowedValues
