import AllowedValues.Proofs.Enrichment.Idempotence
import AllowedValues.Proofs.Json.Requests

/-!
Giving the printed description back to the command. What is printed as JSON is a request again,
with the enriched description and no validators, and enriching that description with any of the
validators that it has been enriched with prints the same.
-/

namespace AllowedValues

/-- The request to enrich a description again that has been enriched already. -/
def Request.again (request : Request) (settings : Settings) (validators : List Text) : Request :=
  ⟨(request.enrich settings).content, validators⟩

theorem exists_of_load {α : Type} {ofDocument : Format → Text → Except LoadFault α}
    {contents : Text → Files.Contents} {path : Text} {a : α}
    (h : load ofDocument contents path = .ok a) : ∃ format source,
      Format.ofPath? path = some format ∧ contents path = .ok source ∧
        ofDocument format source = .ok a := by
  rw [load] at h
  split at h
  · cases h
  · next format hformat =>
      split at h
      · cases h
      · next source hsource => exact ⟨format, source, hformat, hsource, h⟩

theorem Settings.fault?_of_ofDocument {format : Format} {source : Text} {settings : Settings}
    (h : Settings.ofDocument format source = .ok settings) : settings.fault? = none := by
  unfold Settings.ofDocument at h
  extract_lets loaded at h
  clear_value loaded
  split at h
  · cases h
  · split at h
    · cases h
    · next hfault =>
        cases h
        exact hfault

namespace Command

/-- The settings that a command line is carried out with: those of the document that it names, or
else the defaults. -/
def loadSettings (contents : Text → Files.Contents) : Option Text → Except LoadFault Settings
  | none => .ok {}
  | some path => Settings.load contents path

theorem fault?_of_loadSettings {contents : Text → Files.Contents} {settingsPath? : Option Text}
    {settings : Settings} (h : loadSettings contents settingsPath? = .ok settings) :
    settings.fault? = none := by
  cases settingsPath? with
  | none =>
      cases h
      decide
  | some path =>
      obtain ⟨format, source, -, -, hdocument⟩ := exists_of_load h
      exact Settings.fault?_of_ofDocument hdocument

section Runs

variable {contents : Text → Files.Contents} {arguments : List Text} {settingsPath? : Option Text}
  {path : Text} {style : Style} {settings : Settings} {request : Request}

theorem outcome_eq_run {task : Task}
    (harguments : Invocation.ofArguments arguments = .ok ⟨settingsPath?, task⟩)
    (hsettings : loadSettings contents settingsPath? = .ok settings) :
    outcome contents arguments = task.run settings contents := by
  simp only [outcome, harguments, Invocation.run]
  cases settingsPath? with
  | none =>
      cases hsettings
      rfl
  | some settingsPath =>
      have hload : Settings.load contents settingsPath = .ok settings := hsettings
      simp only [hload]

theorem outcome_file
    (harguments : Invocation.ofArguments arguments = .ok ⟨settingsPath?, .file path style⟩)
    (hsettings : loadSettings contents settingsPath? = .ok settings)
    (hrequest : Request.load contents path = .ok request) :
    outcome contents arguments = .printed (style.print (request.enrich settings)) := by
  rw [outcome_eq_run harguments hsettings]
  simp only [Task.run, hrequest]

/-- Enriching an enriched description with some of the same validators changes nothing. -/
theorem enrich_again (hfault : settings.fault? = none) (hlabel : '\n' ∉ settings.label)
    {validators : List Text} (hsubset : validators ⊆ request.validators) :
    (request.again settings validators).enrich settings = request.enrich settings :=
  Description.enrich_enrich_of_subset
    (Description.not_overlapsAtLine_of_label hfault hlabel request.validators) hsubset _

/-- A description that is printed as JSON can be given back to the command. The text is a document
that holds the enriched description and nothing else, and it is a request. With any selection of
the validators that the description was enriched with, in whatever document, the command prints the
same text again. -/
theorem outcome_feedback
    (harguments : Invocation.ofArguments arguments = .ok ⟨settingsPath?, .file path .json⟩)
    (hsettings : loadSettings contents settingsPath? = .ok settings)
    (hlabel : '\n' ∉ settings.label) (hrequest : Request.load contents path = .ok request) :
    ∃ out, outcome contents arguments = .printed out ∧
      Json.Document.read out =
        ⟨.object [(some "description".toList, (request.enrich settings).tree)], true⟩ ∧
      (∀ contents' path', Format.ofPath? path' = some .json → contents' path' = .ok out →
        Request.load contents' path' = .ok (request.again settings [])) ∧
      ∀ validators ⊆ request.validators,
        Request.ofDocument .json (request.again settings validators).write =
          .ok (request.again settings validators) ∧
        ∀ contents' arguments' settingsPath?' path',
          Invocation.ofArguments arguments' = .ok ⟨settingsPath?', .file path' .json⟩ →
          loadSettings contents' settingsPath?' = .ok settings →
          Request.load contents' path' = .ok (request.again settings validators) →
            outcome contents' arguments' = .printed out := by
  refine ⟨_, outcome_file harguments hsettings hrequest, Description.read_print _, ?_, ?_⟩
  · intro contents' path' hpath hout
    exact Request.load_of_ofDocument hpath hout (Request.ofDocument_print _)
  · intro validators hsubset
    refine ⟨Request.ofDocument_write _, ?_⟩
    intro contents' arguments' settingsPath?' path' harguments' hsettings' hagain
    rw [outcome_file harguments' hsettings' hagain,
      enrich_again (fault?_of_loadSettings hsettings) hlabel hsubset]

/-- A description with a quote and a control character, and its validator given back twice. -/
theorem outcome_feedback_twice :
    let validator : Text := "stringvalidator.OneOf(\"a\")".toList
    let request : Request := ⟨some ['"', 'é', Char.ofNat 1], [validator]⟩
    let again := request.again {} [validator, validator]
    let out : Text := "\x7b\"description\":\"\\\"é\\u0001\\nPossible values: `a`\"\x7d\n".toList
    let arguments : List Text := ["file".toList, "r.json".toList, "-f".toList, "json".toList]
    Invocation.ofArguments arguments = .ok ⟨none, .file "r.json".toList .json⟩ ∧
      Request.load (fun _ => .ok request.write) "r.json".toList = .ok request ∧
      outcome (fun _ => .ok request.write) arguments = .printed out ∧
      Request.load (fun _ => .ok out) "r.json".toList = .ok (request.again {} []) ∧
      outcome (fun _ => .ok again.write) arguments = .printed out := by
  intro validator request again out arguments
  have harguments : Invocation.ofArguments arguments =
      .ok ⟨none, .file "r.json".toList .json⟩ := by rfl
  have hpath : Format.ofPath? "r.json".toList = some .json := by decide
  have hload (r : Request) : Request.load (fun _ => .ok r.write) "r.json".toList = .ok r :=
    Request.load_of_ofDocument hpath rfl r.ofDocument_write
  obtain ⟨text, hprinted, -, hback, hagain⟩ :=
    @outcome_feedback _ _ _ _ {} _ harguments rfl (by decide) (hload request)
  have htext : text = out := by
    have hprint : Style.json.print (request.enrich {}) = out := by decide +kernel
    have hsame := hprinted.symm.trans (outcome_file harguments rfl (hload request))
    rw [hprint] at hsame
    exact Outcome.printed.inj hsame
  subst htext
  exact ⟨harguments, hload request, hprinted, hback _ _ hpath rfl,
    (hagain [validator, validator] (by simp [request])).2 _ _ _ _ harguments rfl (hload again)⟩

end Runs

end Command

end AllowedValues
