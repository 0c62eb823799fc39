import AllowedValues.Proofs.Source.Tokens
import AllowedValues.Source.Call

/-!
What a call in a source text spans. The tokens between its parentheses are the code units of its
arguments, and the arguments can be cut by themselves.
-/

namespace AllowedValues.Source

open Piece (cut? isCode kinds spelling)

/-- The byte position of the first character after the opening parenthesis of a call. -/
def Call.argumentsStart (call : Call) : Nat := call.stop - 1 - call.arguments.byteSize

/-- The tokens of a text that stand between the parentheses of a call. -/
def Call.inner (call : Call) (ts : List Token) : List Token :=
  ts.filter fun t =>
    call.stop - 1 - call.arguments.byteSize ≤ t.start ∧ t.stop ≤ call.stop - 1

theorem filter_append_append {p : α → Bool} {first mid last : List α}
    (hfirst : ∀ a ∈ first, p a = false) (hmid : ∀ a ∈ mid, p a = true)
    (hlast : ∀ a ∈ last, p a = false) : (first ++ (mid ++ last)).filter p = mid := by
  have hnone (l : List α) (h : ∀ a ∈ l, p a = false) : l.filter p = [] := by
    rw [List.filter_eq_nil_iff]
    intro a ha
    rw [h a ha]
    exact Bool.false_ne_true
  rw [List.filter_append, List.filter_append, hnone first hfirst, List.filter_eq_self.2 hmid,
    hnone last hlast, List.nil_append, List.append_nil]

section Calls

variable {source package function : Text} {all ts : List Token} {call : Call}

/-- What a call begins with, and what it is made of. -/
theorem exists_of_callAtHead? (h : callAtHead? source package function all ts = some call) :
    ∃ pkg dot name opening rest j close, ts = pkg :: dot :: name :: opening :: rest ∧
      (pkg.kind = .ident ∧ pkg.text = package) ∧ dot.kind = .dot ∧
        (name.kind = .ident ∧ name.text = function) ∧ opening.kind = .opening .paren ∧
          opening.close = some j ∧ all[j]? = some close ∧
            call = ⟨pkg.start, close.stop, source.slice opening.stop close.start⟩ := by
  match ts with
  | [] => cases h
  | [_] => cases h
  | [_, _] => cases h
  | [_, _, _] => cases h
  | pkg :: dot :: name :: opening :: rest =>
      rw [callAtHead?] at h
      split_ifs at h with hhead
      obtain ⟨hpkg, hpackage, hdot, hname, hfunction, hopening⟩ := hhead
      obtain ⟨close, hclose, rfl⟩ := Option.map_eq_some_iff.1 h
      obtain ⟨j, hj, hget⟩ := Option.bind_eq_some_iff.1 hclose
      exact ⟨pkg, dot, name, opening, rest, j, close, rfl, ⟨hpkg, hpackage⟩, hdot,
        ⟨hname, hfunction⟩, hopening, hj, hget, rfl⟩

theorem start_eq_of_callAtHead? {t : Token}
    (h : callAtHead? source package function all (t :: ts) = some call) :
    call.start = t.start := by
  obtain ⟨pkg, dot, name, opening, rest, j, close, heq, -, -, -, -, -, -, rfl⟩ :=
    exists_of_callAtHead? h
  rw [(List.cons.inj heq).1]

theorem exists_of_mem_callsAfter {previous : Option Kind}
    (h : call ∈ callsAfter source package function all previous ts) :
    ∃ front rest, ts = front ++ rest ∧
      callAtHead? source package function all rest = some call := by
  induction ts generalizing previous with
  | nil => cases h
  | cons t ts ih =>
      have hlater (h : call ∈ callsAfter source package function all (some t.kind) ts) :
          ∃ front rest, t :: ts = front ++ rest ∧
            callAtHead? source package function all rest = some call := by
        obtain ⟨front, rest, rfl, hcall⟩ := ih h
        exact ⟨t :: front, rest, rfl, hcall⟩
      simp only [callsAfter] at h
      split_ifs at h
      · exact hlater h
      · rcases List.mem_append.1 h with h | h
        · exact ⟨[], t :: ts, rfl, Option.mem_toList.1 h⟩
        · exact hlater h

theorem Kind.ofChar_eq_closing {c : Char} {b : Bracket} (h : Kind.ofChar c = .closing b) :
    Bracket.ofClosing? c = some b := by
  rw [Kind.ofChar] at h
  split_ifs at h
  split at h
  · cases h
  · cases h
    assumption
  · cases h

theorem byteSize_of_closing {t : Token} {pieces : List Piece} (hcut : cut? source = some pieces)
    (ht : t.piece ∈ pieces) (hkind : t.kind = .closing .paren) : t.text.byteSize = 1 := by
  obtain ⟨c, rest, n, hreach, htext⟩ := Piece.exists_reach?_of_mem_cut? hcut ht
  obtain ⟨hc, rfl⟩ := (Piece.reaches_of_reach? hreach).of_closing (by rw [Token.piece, hkind])
  have hparen : c = ')' := by
    have hclosing := Kind.ofChar_eq_closing hc
    unfold Bracket.ofClosing? at hclosing
    split at hclosing <;> simp_all
  have htext' : t.text = [')'] := by rw [← hparen]; exact htext
  rw [htext']
  rfl

theorem exists_getElem?_of_close {head rest : List Token} {opening : Token} {j : Nat}
    (hmatch : matchFrom 0 (ts.map (·.kind)) = some (ts.map (·.close), []))
    (hsplit : ts = head ++ opening :: rest) (hj : opening.close = some j) :
    ∃ close, ts[j]? = some close := by
  have hcloses : (ts.map (·.close))[head.length]? = some (some j) := by
    simp [hsplit, hj]
  obtain ⟨before, b, inner, after, hkinds, hlength, -, hindex⟩ :=
    exists_closing_of_getElem? hmatch hcloses
  have hcount := congrArg List.length hkinds
  simp only [List.length_map, List.length_append, List.length_cons] at hcount
  exact ⟨_, List.getElem?_eq_getElem (by omega)⟩

/-- The token that an opening bracket is matched to closes it, with balanced tokens between. -/
theorem exists_of_close {head rest : List Token} {opening close : Token} {j : Nat}
    (hmatch : matchFrom 0 (ts.map (·.kind)) = some (ts.map (·.close), []))
    (hsplit : ts = head ++ opening :: rest) (hj : opening.close = some j)
    (hget : ts[j]? = some close) : ∃ mid last, rest = mid ++ close :: last ∧
      Balanced (mid.map (·.kind)) ∧ j = head.length + 1 + mid.length ∧
        ∃ b, opening.kind = .opening b ∧ close.kind = .closing b := by
  subst hsplit
  have hcloses : ((head ++ opening :: rest).map (·.close))[head.length]? = some (some j) := by
    simp [hj]
  obtain ⟨before, b, inner, after, hkinds, hlength, hinner, hindex⟩ :=
    exists_closing_of_getElem? hmatch hcloses
  rw [List.map_append, List.map_cons] at hkinds
  obtain ⟨hopening, hrest⟩ :=
    List.cons.inj (List.append_inj_right hkinds (by rw [List.length_map, hlength]))
  obtain ⟨mid, tail, rfl, rfl, htail⟩ := List.map_eq_append_iff.1 hrest
  obtain ⟨close', last, rfl, hclose, -⟩ := List.map_eq_cons_iff.1 htail
  rw [List.length_map, Nat.zero_add] at hindex
  have hget' : (head ++ opening :: (mid ++ close' :: last))[j]? = some close' := by
    rw [hindex, List.getElem?_append_right (by omega),
      show head.length + 1 + mid.length - head.length = mid.length + 1 by omega]
    simp
  obtain rfl := Option.some.inj (hget'.symm.trans hget)
  exact ⟨mid, last, rfl, hinner, hindex, b, hopening, hclose⟩

theorem exists_pieces_around {pieces : List Piece} {head mid last : List Token}
    {opening close : Token}
    (htokens : (head ++ opening :: (mid ++ close :: last)).map Token.unmatched = locate 0 pieces) :
    ∃ before inner after, pieces = before ++ opening.piece :: (inner ++ close.piece :: after) ∧
      locate 0 before = head.map Token.unmatched ∧
      opening.start = (spelling before).byteSize ∧
      locate opening.stop inner = mid.map Token.unmatched ∧
      close.start = opening.stop + (spelling inner).byteSize ∧
      locate close.stop after = last.map Token.unmatched := by
  rw [List.map_append, List.map_cons, List.map_append, List.map_cons] at htokens
  obtain ⟨before, tail, rfl, hbefore, hopening, htail⟩ :=
    exists_of_locate_eq_append_cons htokens.symm
  obtain ⟨inner, after, rfl, hinner, hclose, hafter⟩ := exists_of_locate_eq_append_cons htail
  rw [Nat.zero_add] at hopening
  exact ⟨before, inner, after, rfl, hbefore, hopening, hinner, hclose, hafter⟩

/-- Where a call stands in a text: the tokens and the pieces before its parentheses, between them
and after them. -/
structure Call.Site (source : Text) (ts : List Token) (call : Call) where
  front : List Token
  opening : Token
  inner : List Token
  close : Token
  last : List Token
  before : List Piece
  between : List Piece
  after : List Piece
  tokens_eq : ts = front ++ opening :: (inner ++ close :: last)
  cut_eq : cut? source = some (before ++ opening.piece :: (between ++ close.piece :: after))
  units_eq : ts.map Token.unmatched =
    locate 0 (before ++ opening.piece :: (between ++ close.piece :: after))
  inner_eq : locate opening.stop between = inner.map Token.unmatched
  balanced : Balanced (inner.map (·.kind))
  opening_kind : opening.kind = .opening .paren
  close_kind : close.kind = .closing .paren
  opening_start : opening.start = (spelling before).byteSize
  close_start : close.start = opening.stop + (spelling between).byteSize
  arguments_eq : call.arguments = source.slice opening.stop close.start
  stop_eq : call.stop = close.stop
  exists_start_eq : ∃ pkg ∈ front, call.start = pkg.start

/-- The call begins with the token of index `i` and ends with that of index `j`. -/
def Call.Spans (call : Call) (ts : List Token) (i j : Nat) : Prop :=
  ts[i]?.map Token.start = some call.start ∧ ts[j]?.map Token.stop = some call.stop

/-- A call that begins with a token has its site three tokens further on, from the parenthesis that
opens its arguments to the one that closes them. -/
theorem exists_site_of_callAtHead? {done rest : List Token} (hts : tokens? source = some ts)
    (hsplit : ts = done ++ rest)
    (hhead : callAtHead? source package function ts rest = some call) :
    ∃ site : call.Site source ts, site.front.length = done.length + 3 ∧
      locate 0 site.before = site.front.map Token.unmatched ∧
      site.opening.close = some (done.length + 4 + site.inner.length) ∧
      call.Spans ts done.length (done.length + 4 + site.inner.length) := by
  obtain ⟨pieces, hcut, -, htokens, -⟩ := tokens?_eq_some_iff.1 hts
  obtain ⟨pkg, dot, name, opening, rest, j, close, rfl, -, -, -, hparen, hj, hget, rfl⟩ :=
    exists_of_callAtHead? hhead
  have hsplit' : ts = (done ++ [pkg, dot, name]) ++ opening :: rest := by simp [hsplit]
  obtain ⟨mid, last, rfl, hmid, hindex, b, hopening, hclosing⟩ :=
    exists_of_close (matchFrom_of_tokens? hts) hsplit' hj hget
  obtain rfl : Bracket.paren = b := by simpa [hparen] using hopening
  -- Three tokens name the function and the fourth is the parenthesis.
  have hlength : j = done.length + 4 + mid.length := by
    rw [hindex, List.length_append]
    simp only [List.length_cons, List.length_nil]
  have hunits := htokens
  rw [hsplit'] at htokens
  obtain ⟨before, between, after, rfl, hbefore, hstart, hinner, hclose, -⟩ :=
    exists_pieces_around htokens
  refine ⟨{
    front := done ++ [pkg, dot, name]
    opening, close, last, before, between, after
    inner := mid
    tokens_eq := hsplit'
    cut_eq := hcut
    units_eq := hunits
    inner_eq := hinner
    balanced := hmid
    opening_kind := hparen
    close_kind := hclosing
    opening_start := hstart
    close_start := hclose
    arguments_eq := rfl
    stop_eq := rfl
    exists_start_eq := ⟨pkg, by simp, rfl⟩ }, by simp, hbefore, ?_, ?_, ?_⟩
  · exact hlength ▸ hj
  · simp [hsplit]
  · rw [← hlength, hget]
    rfl

theorem nonempty_site (hts : tokens? source = some ts)
    (hcall : call ∈ calls package function source) : Nonempty (call.Site source ts) := by
  rw [calls, hts] at hcall
  obtain ⟨done, rest, hsplit, hhead⟩ := exists_of_mem_callsAfter hcall
  obtain ⟨site, -⟩ := exists_site_of_callAtHead? hts hsplit hhead
  exact ⟨site⟩

namespace Call.Site

variable (site : call.Site source ts)

include site

theorem map_tokens (f : Token → α) : ts.map f = (site.front ++ [site.opening]).map f ++
    (site.inner.map f ++ (site.close :: site.last).map f) := by
  refine (congrArg (List.map f) site.tokens_eq).trans ?_
  simp

/-- The text falls into five parts, of which the arguments are the third. -/
theorem source_eq : source = spelling site.before ++ site.opening.text ++
    (spelling site.between ++ (site.close.text ++ spelling site.after)) := by
  refine (Piece.spelling_of_cut? site.cut_eq).symm.trans ?_
  simp [Token.piece]

theorem opening_stop :
    site.opening.stop = Text.byteSize (spelling site.before ++ site.opening.text) := by
  rw [Token.stop, site.opening_start, Text.byteSize_append]

theorem arguments_eq_spelling : call.arguments = spelling site.between := by
  rw [site.arguments_eq, site.close_start, site.opening_stop]
  refine (congrArg (Text.slice · _ _) site.source_eq).trans ?_
  exact Text.slice_middle _ _ _

theorem close_stop : site.close.stop = site.close.start + 1 := by
  rw [Token.stop, byteSize_of_closing site.cut_eq (by simp) site.close_kind]

theorem argumentsStart_eq : call.argumentsStart = site.opening.stop := by
  rw [Call.argumentsStart, site.stop_eq, site.close_stop, site.close_start,
    site.arguments_eq_spelling]
  omega

theorem cut?_arguments : cut? call.arguments = some site.between := by
  have hcut := site.cut_eq
  rw [← List.singleton_append, ← List.append_assoc] at hcut
  have hparts := (congrArg cut? site.source_eq).symm.trans hcut
  have hrest := (Piece.cut?_of_append hparts (by simp [Token.piece])).2
  rw [site.arguments_eq_spelling]
  exact (Piece.cut?_of_append hrest rfl).1

theorem kinds_between : kinds site.between = site.inner.map (·.kind) :=
  kinds_eq_of_unmatched site.inner_eq.symm

theorem stop_sub_one : call.stop - 1 = site.close.start := by
  rw [site.stop_eq, site.close_stop, Nat.add_sub_cancel]

theorem argumentsStart_add : call.argumentsStart + call.arguments.byteSize = call.stop - 1 := by
  rw [site.stop_sub_one, site.argumentsStart_eq, site.close_start, site.arguments_eq_spelling]

theorem pairwise : (site.front ++ site.opening :: (site.inner ++ site.close :: site.last)).Pairwise
    fun t u => t.stop ≤ u.start :=
  (congrArg (List.Pairwise _) site.tokens_eq).mp (pairwise_of_unmatched site.units_eq)

theorem mem_of_mem {t : Token}
    (h : t ∈ site.front ++ site.opening :: (site.inner ++ site.close :: site.last)) : t ∈ ts :=
  (congrArg (t ∈ ·) site.tokens_eq).mpr h

theorem start_lt_argumentsStart {t : Token} (ht : t ∈ site.front ++ [site.opening]) :
    t.start < call.argumentsStart := by
  have hmem : t ∈ ts := by
    apply site.mem_of_mem
    rw [List.append_cons]
    exact List.mem_append_left _ ht
  have hself := start_lt_stop site.cut_eq site.units_eq hmem
  rw [site.argumentsStart_eq]
  rcases List.mem_append.1 ht with ht | ht
  · have hbefore := (List.pairwise_append.1 site.pairwise).2.2 t ht site.opening (by simp)
    have hopening : site.opening.start ≤ site.opening.stop := Nat.le_add_right _ _
    omega
  · rwa [← List.mem_singleton.1 ht]

theorem stop_sub_one_le_start {t : Token} (ht : t ∈ site.close :: site.last) :
    call.stop - 1 ≤ t.start := by
  have horder := site.pairwise
  rw [List.pairwise_append, List.pairwise_cons, List.pairwise_append, List.pairwise_cons] at horder
  obtain ⟨-, ⟨-, -, ⟨hclose, -⟩, -⟩, -⟩ := horder
  rw [site.stop_sub_one]
  rcases List.mem_cons.1 ht with rfl | ht
  · exact Nat.le_refl _
  · exact Nat.le_trans (Nat.le_add_right _ _) (hclose t ht)

/-- Of all tokens exactly those between the parentheses begin after the one and end before the
other. -/
theorem inner_eq_filter : call.inner ts = site.inner := by
  have horder := site.pairwise
  rw [List.pairwise_append, List.pairwise_cons, List.pairwise_append] at horder
  obtain ⟨-, ⟨hopening, -, -, hclose⟩, -⟩ := horder
  refine (congrArg call.inner site.tokens_eq).trans ?_
  rw [Call.inner, ← Call.argumentsStart, List.append_cons]
  apply filter_append_append
  · intro t ht
    have hbefore := site.start_lt_argumentsStart ht
    simp only [decide_eq_false_iff_not, not_and]
    omega
  · intro t ht
    rw [decide_eq_true_eq, site.argumentsStart_eq, site.stop_sub_one]
    exact ⟨hopening t (by simp [ht]), hclose t ht site.close (by simp)⟩
  · -- No token is empty: those behind the parentheses end too late.
    intro t ht
    have hbehind := site.stop_sub_one_le_start ht
    have hself := start_lt_stop site.cut_eq site.units_eq (site.mem_of_mem (t := t) (by simp [ht]))
    simp only [decide_eq_false_iff_not, not_and]
    omega

end Call.Site

theorem bounds_of_mem_calls (hts : tokens? source = some ts)
    (hcall : call ∈ calls package function source) :
    call.start < call.stop ∧ call.stop ≤ source.byteSize := by
  obtain ⟨site⟩ := nonempty_site hts hcall
  constructor
  · obtain ⟨pkg, hpkg, hstart⟩ := site.exists_start_eq
    have hbefore := site.start_lt_argumentsStart (List.mem_append_left _ hpkg)
    have hwithin := site.argumentsStart_add
    omega
  · have hclose : site.close ∈ ts := site.mem_of_mem (by simp)
    have hbound := (bounds_of_mem_locate (mem_locate_of_unmatched site.units_eq hclose)).2.2
    rw [Piece.spelling_of_cut? site.cut_eq, Nat.zero_add] at hbound
    rw [site.stop_eq]
    exact hbound

/-- The arguments of a call can be cut by themselves, their brackets are balanced, and the tokens
between its parentheses are their code units. -/
theorem exists_cut?_arguments (hts : tokens? source = some ts)
    (hcall : call ∈ calls package function source) : ∃ inner,
      cut? call.arguments = some inner ∧ Balanced (kinds inner) ∧
        (call.inner ts).map Token.piece = inner.filter isCode := by
  obtain ⟨site⟩ := nonempty_site hts hcall
  refine ⟨site.between, site.cut?_arguments, ?_, ?_⟩
  · rw [site.kinds_between]
    exact site.balanced
  · rw [site.inner_eq_filter, ← map_piece_locate site.opening.stop, site.inner_eq, List.map_map]
    rfl

end Calls

end AllowedValues.Source
