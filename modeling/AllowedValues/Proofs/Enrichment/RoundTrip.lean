import AllowedValues.Proofs.Argument.Layout
import AllowedValues.Proofs.Enrichment.SuffixLine
import AllowedValues.Proofs.Source.OneCall

/-!
From values to a source text and back. However a call of the function is spelled and laid out, the
values that its literals spell are the ones found in it, and they are what the suffix line lists.
-/

namespace AllowedValues

open Argument (Arranged IsGap SpellsArguments Unseen cutsBefore_mark cutsBefore_name)
open Source (Kind Piece)
open Source.Piece (CutsBefore cut? isCode kinds spelling)

/-- The part of a call before its parentheses, with a gap before every token and after the last. -/
inductive SpellsCallee (package function : Text) : Text → Prop
  | intro {lead beforeDot afterDot last : Text} :
      IsGap lead → IsGap beforeDot → IsGap afterDot → IsGap last →
      SpellsCallee package function
        (lead ++ (package ++ (beforeDot ++ '.' :: (afterDot ++ (function ++ last)))))

/-- A source text of one call that spells values. -/
inductive SpellsCall (package function : Text) (values : List Text) : Text → Prop
  | intro {callee arguments trail : Text} :
      SpellsCallee package function callee → SpellsArguments values arguments → IsGap trail →
      SpellsCall package function values (callee ++ '(' :: (arguments ++ ')' :: trail))

variable {package function source : Text} {values : List Text}

theorem exists_spellsCall (package function : Text) (values : List Text) :
    ∃ source, SpellsCall package function values source := by
  obtain ⟨arguments, harguments⟩ := Argument.exists_spellsArguments values
  exact ⟨_, .intro (.intro .nil .nil .nil .nil) harguments .nil⟩

theorem SpellsCallee.cutsBefore {callee : Text} (h : SpellsCallee package function callee)
    (hpackage : package.isIdentifier = true) (hfunction : function.isIdentifier = true)
    (rest : Text) : ∃ ps, CutsBefore callee ps ('(' :: rest) ∧ ps.filter isCode =
      [⟨.code .ident, package⟩, ⟨.code .dot, ['.']⟩, ⟨.code .ident, function⟩] := by
  cases h with
  | @intro lead beforeDot afterDot last hlead hbefore hafter hlast =>
      obtain ⟨ps₀, hps₀, hcuts₀⟩ := hlead.cutsBefore
      obtain ⟨ps₁, hps₁, hcuts₁⟩ := hbefore.cutsBefore
      obtain ⟨ps₂, hps₂, hcuts₂⟩ := hafter.cutsBefore
      obtain ⟨ps₃, hps₃, hcuts₃⟩ := hlast.cutsBefore
      have hname : CutsBefore function [⟨.code .ident, function⟩] (last ++ '(' :: rest) :=
        cutsBefore_name hfunction (hlast.head?_append (by decide) rest)
      have hcallee := (cutsBefore_mark (c := '.') (by decide) _).append
        ((hcuts₂ _).append (hname.append (hcuts₃ _)))
      have hhead : ∀ d,
          (beforeDot ++ '.' :: (afterDot ++ (function ++ last)) ++ '(' :: rest).head? = some d →
            isIdentifierPart d = false := by
        rw [List.append_assoc, List.cons_append]
        exact hbefore.head?_append (by decide) _
      refine ⟨_, (hcuts₀ _).append
        ((cutsBefore_name hpackage hhead).append ((hcuts₁ _).append hcallee)), ?_⟩
      simp only [List.filter_append, hps₀.filter_isCode, hps₁.filter_isCode, hps₂.filter_isCode,
        hps₃.filter_isCode]
      rfl

theorem SpellsCall.exists_calls_eq (h : SpellsCall package function values source)
    (hpackage : package.isIdentifier = true) (hfunction : function.isIdentifier = true) :
    ∃ call, Source.calls package function source = [call] ∧
      SpellsArguments values call.arguments := by
  cases h with
  | @intro callee arguments trail hcallee harguments htrail =>
      -- The parts are cut from the last to the first, each with all that follows it in view.
      obtain ⟨before, hcutsBefore, hbefore⟩ :=
        hcallee.cutsBefore hpackage hfunction (arguments ++ ')' :: trail)
      obtain ⟨inner, hinner, hcutsInner⟩ := harguments.cutsBefore
      obtain ⟨after, hafter, hcutsAfter⟩ := htrail.cutsBefore
      have hclosing := (cutsBefore_mark (c := ')') (by decide) (trail ++ [])).append (hcutsAfter [])
      have hparens := (cutsBefore_mark (c := '(') (by decide) _).append
        ((hcutsInner _).append hclosing)
      have hcut : cut? (callee ++ '(' :: (arguments ++ ')' :: trail)) =
          some (before ++ ⟨.code (.opening .paren), ['(']⟩ ::
            (inner ++ ⟨.code (.closing .paren), [')']⟩ :: after)) := by
        apply CutsBefore.cut?_eq
        refine CutsBefore.append ?_ hparens
        rw [List.append_nil]
        exact hcutsBefore
      obtain ⟨call, hcall, hspelling⟩ := Source.exists_calls_eq_singleton hcut hbefore
        hafter.filter_isCode hinner.flat (hinner.commasSettled _)
      have hcutInner : cut? arguments = some inner := (hcutsInner []).cut?_eq
      rw [Source.Piece.spelling_of_cut? hcutInner] at hspelling
      exact ⟨call, hcall, by rwa [hspelling]⟩

theorem SpellsCall.valueSets_eq {settings : Settings} (hfault : settings.fault? = none)
    (h : SpellsCall settings.package settings.function values source) :
    settings.valueSets source = [values] := by
  obtain ⟨hpackage, hfunction, -, -⟩ := Settings.fault?_eq_none_iff.1 hfault
  obtain ⟨call, hcalls, harguments⟩ := h.exists_calls_eq hpackage hfunction
  rw [Settings.valueSets, hcalls, List.map_singleton, harguments.values_eq]

/-- The values of a call are found however it is spelled. -/
theorem valueSets_of_spellsCall {settings : Settings} (hfault : settings.fault? = none)
    (h : SpellsCall settings.package settings.function values source) :
    settings.valueSets source = [values] ∧
      (values ≠ [] → settings.suffixLines source = [settings.label ++
        Text.join ", ".toList (values.map (CodeSpan.render settings.delimiter))]) := by
  refine ⟨h.valueSets_eq hfault, fun hne => ?_⟩
  rw [Settings.suffixLines, h.valueSets_eq hfault, List.filterMap_cons_some
    (Settings.suffix?_eq_some_iff.2 ⟨hne, rfl⟩), List.filterMap_nil]

/-- Two spellings of a value and a comment, with a comma at the end. -/
theorem valueSets_of_spellsCall_two_spellings :
    let settings : Settings := { package := ['p'], function := ['f'], label := ['v', ' '] }
    let source : Text := ['p', '.', 'f', '(', '"', '\\', 'x', '6', '1', '"', ' ', ',',
      '/', '*', 'c', '*', '/', '`', 'a', '`', ',', ')']
    settings.fault? = none ∧ SpellsCall ['p'] ['f'] [['a'], ['a']] source ∧
      settings.valueSets source = [[['a'], ['a']]] ∧
      settings.suffixLines source = ["v `a`, `a`".toList] := by
  intro settings source
  have hfault : settings.fault? = none := by decide
  have hescape : Literal.Spells ['"', '\\', 'x', '6', '1', '"'] ['a'] := by
    have hbody : Literal.Body ['\\', 'x', '6', '1'] (['a'].flatMap String.utf8EncodeChar) :=
      @Literal.Body.cons _ [] [97] [] (@Literal.Element.hex ['6', '1'] 97 rfl rfl) .nil
    exact .interpreted hbody
  have hraw : Literal.Spells ['`', 'a', '`'] ['a'] := @Literal.Spells.raw ['a'] (by decide)
  have hcomment : IsGap ['/', '*', 'c', '*', '/'] :=
    @IsGap.block ['c'] [] (by rw [Literal.IsCommentBody]; decide) .nil
  have harguments : SpellsArguments [['a'], ['a']] _ :=
    .cons .nil hescape (.blank (c := ' ') rfl .nil) (.cons hcomment hraw .nil (.nil .nil))
  have hcall : SpellsCall ['p'] ['f'] [['a'], ['a']] source :=
    .intro (.intro .nil .nil .nil .nil) harguments .nil
  obtain ⟨hvalues, hlines⟩ := valueSets_of_spellsCall hfault hcall
  refine ⟨hfault, hcall, hvalues, ?_⟩
  rw [hlines (by decide)]
  decide

end AllowedValues
