import AllowedValues.Proofs.Source.Calls
import Mathlib.Data.List.Forall2

/-!
What calls are found by. Of a token this is its kind, what it is matched to and, if it is a name,
its text. Where two texts have tokens that agree in these, their calls begin and end at the same
ones.
-/

namespace AllowedValues.Source

open Piece (cut? kinds)

/-- What calls are found by. -/
def Token.signature (t : Token) : Kind × Option Nat × Option Text :=
  (t.kind, t.close, if t.kind = .ident then some t.text else none)

theorem Token.signature_eq_iff {t u : Token} : t.signature = u.signature ↔
    t.kind = u.kind ∧ t.close = u.close ∧ (t.kind = .ident → t.text = u.text) := by
  rw [signature, signature, Prod.mk.injEq, Prod.mk.injEq]
  refine and_congr_right fun hkind => and_congr_right fun _ => ?_
  rw [← hkind]
  split_ifs with hident <;> simp [hident]

/-- Two calls of a function, each in its own text, that begin at tokens of the same index. -/
def Counterparts (package function source source' : Text) (all all' : List Token)
    (call call' : Call) : Prop :=
  ∃ done ts done' ts', all = done ++ ts ∧ all' = done' ++ ts' ∧ done.length = done'.length ∧
    callAtHead? source package function all ts = some call ∧
    callAtHead? source' package function all' ts' = some call'

section Alike

variable {package function source source' : Text} {all all' ts ts' : List Token}
  {call call' : Call}

/-- Whether a call begins at a token depends on the signatures only. -/
theorem exists_callAtHead?_of_signature
    (hall : all.map Token.signature = all'.map Token.signature)
    (hts : ts.map Token.signature = ts'.map Token.signature)
    (h : callAtHead? source package function all ts = some call) :
    ∃ call', callAtHead? source' package function all' ts' = some call' := by
  obtain ⟨pkg, dot, name, opening, rest, j, close, rfl, ⟨hpkgKind, hpkgText⟩, hdotKind,
    ⟨hnameKind, hnameText⟩, hopeningKind, hj, hget, -⟩ := exists_of_callAtHead? h
  obtain ⟨pkg', _, rfl, hpkg, hts⟩ := List.map_eq_cons_iff.1 hts.symm
  obtain ⟨dot', _, rfl, hdot, hts⟩ := List.map_eq_cons_iff.1 hts
  obtain ⟨name', _, rfl, hname, hts⟩ := List.map_eq_cons_iff.1 hts
  obtain ⟨opening', _, rfl, hopening, hts⟩ := List.map_eq_cons_iff.1 hts
  rw [Token.signature_eq_iff] at hpkg hdot hname hopening
  obtain ⟨close', hget', -⟩ : ∃ close', all'[j]? = some close' ∧
      close'.signature = close.signature := by
    have hsame := congrArg (·[j]?) hall
    simp only [List.getElem?_map, hget, Option.map_some] at hsame
    exact Option.map_eq_some_iff.1 hsame.symm
  have hhead' : pkg'.kind = .ident ∧ pkg'.text = package ∧ dot'.kind = .dot ∧
      name'.kind = .ident ∧ name'.text = function ∧ opening'.kind = .opening .paren := by
    refine ⟨hpkg.1.trans hpkgKind, ?_, hdot.1.trans hdotKind, hname.1.trans hnameKind, ?_,
      hopening.1.trans hopeningKind⟩
    · exact (hpkg.2.2 (hpkg.1.trans hpkgKind)).trans hpkgText
    · exact (hname.2.2 (hname.1.trans hnameKind)).trans hnameText
  rw [callAtHead?, if_pos hhead', hopening.2.1, hj, Option.bind_some, hget', Option.map_some]
  exact ⟨_, rfl⟩

theorem forall₂_callsAfter (hall : all.map Token.signature = all'.map Token.signature)
    {done done' : List Token} (hsplit : all = done ++ ts) (hsplit' : all' = done' ++ ts')
    (hlength : done.length = done'.length) (previous : Option Kind) :
    List.Forall₂ (Counterparts package function source source' all all')
      (callsAfter source package function all previous ts)
      (callsAfter source' package function all' previous ts') := by
  have hts : ts.map Token.signature = ts'.map Token.signature := by
    rw [hsplit, hsplit', List.map_append, List.map_append] at hall
    exact List.append_inj_right hall (by simpa using hlength)
  induction ts generalizing done done' ts' previous with
  | nil =>
      obtain rfl := List.map_eq_nil_iff.1 hts.symm
      exact .nil
  | cons t ts ih =>
      obtain ⟨t', ts', rfl, ht, hrest⟩ := List.map_eq_cons_iff.1 hts.symm
      have hkind := (Token.signature_eq_iff.1 ht).1
      have hlater := @ih ts' (done ++ [t]) (done' ++ [t']) (by simp [hsplit]) (by simp [hsplit'])
        (by simp [hlength]) (some t.kind) hrest.symm
      rw [callsAfter, callsAfter, hkind]
      split_ifs
      · exact hlater
      · -- A call begins at both of the two tokens or at neither.
        refine List.rel_append ?_ hlater
        cases hcall : callAtHead? source package function all (t :: ts) with
        | none =>
            have hnone : callAtHead? source' package function all' (t' :: ts') = none := by
              rw [Option.eq_none_iff_forall_ne_some]
              intro call' hcall'
              obtain ⟨call, hcall''⟩ :=
                @exists_callAtHead?_of_signature _ _ _ source _ _ _ _ _ hall.symm hts.symm hcall'
              simp [hcall] at hcall''
            rw [hnone]
            exact .nil
        | some call =>
            obtain ⟨call', hcall'⟩ :=
              @exists_callAtHead?_of_signature _ _ _ source' _ _ _ _ _ hall hts hcall
            rw [hcall']
            exact .cons ⟨done, _, done', _, hsplit, hsplit', hlength, hcall, hcall'⟩ .nil

theorem forall₂_calls (hts : tokens? source = some ts) (hts' : tokens? source' = some ts')
    (hsame : ts.map Token.signature = ts'.map Token.signature) (package function : Text) :
    List.Forall₂ (Counterparts package function source source' ts ts')
      (calls package function source) (calls package function source') := by
  rw [calls, calls, hts, hts']
  exact forall₂_callsAfter hsame (List.nil_append ts).symm (List.nil_append ts').symm rfl none

/-- Calls that begin at the same token end at the same one, and their sites have as many tokens
before and between the parentheses. -/
theorem Counterparts.exists_sites
    (h : Counterparts package function source source' ts ts' call call')
    (hts : tokens? source = some ts) (hts' : tokens? source' = some ts')
    (hsame : ts.map Token.signature = ts'.map Token.signature) :
    (∃ i j, call.Spans ts i j ∧ call'.Spans ts' i j) ∧
      ∃ (site : call.Site source ts) (site' : call'.Site source' ts'),
        locate 0 site.before = site.front.map Token.unmatched ∧
        locate 0 site'.before = site'.front.map Token.unmatched ∧
        site.front.length = site'.front.length ∧ site.inner.length = site'.inner.length := by
  obtain ⟨done, rest, done', rest', hsplit, hsplit', hlength, hhead, hhead'⟩ := h
  obtain ⟨site, hfront, hbefore, hclose, hspans⟩ := exists_site_of_callAtHead? hts hsplit hhead
  obtain ⟨site', hfront', hbefore', hclose', hspans'⟩ :=
    exists_site_of_callAtHead? hts' hsplit' hhead'
  have hfronts : site.front.length = site'.front.length := by rw [hfront, hfront', hlength]
  have hopening : site.opening.signature = site'.opening.signature := by
    rw [site.map_tokens, site'.map_tokens] at hsame
    have hthrough := List.append_inj_left hsame (by simp [hfronts])
    rw [List.map_append, List.map_append] at hthrough
    exact (List.cons.inj (List.append_inj_right hthrough (by simp [hfronts]))).1
  have hinner : site.inner.length = site'.inner.length := by
    have hcloses := (Token.signature_eq_iff.1 hopening).2.1
    rw [hclose, hclose', Option.some.injEq] at hcloses
    omega
  rw [← hlength, ← hinner] at hspans'
  exact ⟨⟨_, _, hspans, hspans'⟩, site, site', hbefore, hbefore', hfronts, hinner⟩

end Alike

/-- A text is read like another one: its tokens are of the same kinds and are matched alike, and the
calls of every function stand at the same tokens. -/
structure ReadAlike (source : Text) (ts : List Token) (source' : Text) (ts' : List Token) :
    Prop where
  tokens_eq : tokens? source' = some ts'
  kinds_eq : ts'.map (·.kind) = ts.map (·.kind)
  closes_eq : ts'.map (·.close) = ts.map (·.close)
  calls_alike : ∀ package function, List.Forall₂
    (fun call call' => ∃ i j, call.Spans ts i j ∧ call'.Spans ts' i j)
    (calls package function source) (calls package function source')

theorem ReadAlike.of_signature {source source' : Text} {ts ts' : List Token}
    {pieces' : List Piece} (hts : tokens? source = some ts) (hcut' : cut? source' = some pieces')
    (hunits' : ts'.map Token.unmatched = locate 0 pieces')
    (hsame : ts.map Token.signature = ts'.map Token.signature) :
    ReadAlike source ts source' ts' := by
  obtain ⟨pieces, -, hcommas, hunits, hmatch⟩ := tokens?_eq_some_iff.1 hts
  have hkinds : ts'.map (·.kind) = ts.map (·.kind) := by
    simpa [Function.comp_def, Token.signature] using congrArg (List.map Prod.fst) hsame.symm
  have hcloses : ts'.map (·.close) = ts.map (·.close) := by
    simpa [Function.comp_def, Token.signature] using
      congrArg (List.map fun s => s.2.1) hsame.symm
  have hpieces : kinds pieces' = kinds pieces := by
    rw [kinds_eq_of_unmatched hunits', hkinds, kinds_eq_of_unmatched hunits]
  have hts' : tokens? source' = some ts' := by
    refine tokens?_eq_some_iff.2 ⟨pieces', hcut', ?_, hunits', ?_⟩
    · rwa [hpieces]
    · rwa [hpieces, hcloses]
  refine ⟨hts', hkinds, hcloses, fun package function => ?_⟩
  refine (forall₂_calls hts hts' hsame package function).imp fun call call' hpair => ?_
  exact (hpair.exists_sites hts hts' hsame).1

end AllowedValues.Source
