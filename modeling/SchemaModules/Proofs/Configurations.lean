import SchemaModules.Config
import SchemaModules.Proofs.FallibleSteps
import SchemaModules.Proofs.Lookup
import SchemaModules.Proofs.SchemaTypes

/-!
# Written configurations

A configuration that was read from an object is written with all its members: those of the object
keep their values, of whatever kind, and the others take their defaults. What is written is read as
the same configuration.
-/

namespace SchemaModules

theorem OutputMode.label_of_ofLabel? {label : String} {mode : OutputMode}
    (h : OutputMode.ofLabel? label = some mode) : mode.label = label := by
  simpa using List.find?_some h

theorem Language.label_of_ofLabel? {label : String} {language : Language}
    (h : Language.ofLabel? label = some language) : language.label = label := by
  simpa using List.find?_some h

namespace Config

variable {config next : Config} {given members : List (String × Json)} {key : String}
  {value written : Json}

/-! ## Reading one member after the other -/

/-- A part of a state that the members of one name set and no others. Where no name comes twice,
that member decides on it, or the start if there is none. -/
theorem part_of_foldlM {σ α : Type} {step : σ → String → Json → Except Fault σ} {part : σ → α}
    {read : Json → α} {wanted : String} {start final : σ}
    (hstep : ∀ {state key value next}, step state key value = .ok next →
      part next = if key = wanted then read value else part state)
    (hkeys : (members.map Prod.fst).Nodup)
    (h : members.foldlM (fun state (key, value) ↦ step state key value) start = .ok final) :
    part final = ((members.lookup wanted).map read).getD (part start) := by
  induction members generalizing start with
  | nil =>
    obtain rfl := Except.ok.inj h
    rfl
  | cons member rest ih =>
    obtain ⟨key, value⟩ := member
    obtain ⟨hfresh, hrest⟩ := List.nodup_cons.mp hkeys
    rw [List.foldlM_cons] at h
    obtain ⟨middle, hfirst, hlater⟩ := bind_eq_ok_iff.mp h
    rw [ih hrest hlater, hstep hfirst, lookup_cons_eq_ite]
    by_cases hkey : key = wanted
    · have hnone : rest.lookup wanted = none := lookup_eq_none_iff_notMem.mpr (hkey ▸ hfresh)
      simp [hkey, hnone]
    · simp [hkey, Ne.symm hkey]

/-- The settings that stand under `formatter`. -/
def formatterOf (value : Json) : Option FormatterSettings :=
  value.obj?.bind fun members ↦ (readFormatter members).toOption

/-- The settings that stand under `output`. -/
def outputOf (value : Json) : Option OutputSettings :=
  value.obj?.bind fun members ↦ (readOutput members).toOption

theorem exists_of_formatterOf {settings : FormatterSettings}
    (h : formatterOf value = some settings) :
    ∃ members, value = .obj members ∧ readFormatter members = .ok settings := by
  obtain ⟨members, hmembers, hread⟩ := Option.bind_eq_some_iff.mp h
  refine ⟨members, ?_, ?_⟩
  · cases value <;> simp_all [Json.obj?]
  · cases hresult : readFormatter members <;> simp_all [Except.toOption]

theorem exists_of_outputOf {settings : OutputSettings} (h : outputOf value = some settings) :
    ∃ members, value = .obj members ∧ readOutput members = .ok settings := by
  obtain ⟨members, hmembers, hread⟩ := Option.bind_eq_some_iff.mp h
  refine ⟨members, ?_, ?_⟩
  · cases value <;> simp_all [Json.obj?]
  · cases hresult : readOutput members <;> simp_all [Except.toOption]

theorem readMember_eq_ok (h : readMember config key value = .ok next) :
    next = { config with
      definitionLead := if key = "definition_prefix" then value else config.definitionLead
      referenceLead := if key = "ref_prefix" then value else config.referenceLead
      ignored := if key = "ignore_definitions" then value else config.ignored
      addComment := if key = "add_generation_comment" then value else config.addComment
      formatter := if key = "formatter" then formatterOf value else config.formatter
      output := if key = "output" then outputOf value else config.output } := by
  unfold readMember at h
  split at h
  case h_5 =>
    split at h
    · obtain ⟨settings, hsettings, hnext⟩ := bind_eq_ok_iff.mp h
      obtain rfl := Except.ok.inj hnext
      simp [formatterOf, Json.obj?, hsettings, Except.toOption]
    · next hvalue =>
      obtain rfl := Except.ok.inj h
      cases value <;> simp_all [formatterOf, Json.obj?]
  case h_6 =>
    split at h
    · obtain ⟨settings, hsettings, hnext⟩ := bind_eq_ok_iff.mp h
      obtain rfl := Except.ok.inj hnext
      simp [outputOf, Json.obj?, hsettings, Except.toOption]
    · next hvalue =>
      obtain rfl := Except.ok.inj h
      cases value <;> simp_all [outputOf, Json.obj?]
  all_goals
    obtain rfl := Except.ok.inj h
    simp_all

theorem readFormatterMember_eq_ok {settings final : FormatterSettings}
    (h : readFormatterMember settings key value = .ok final) :
    final = {
      enabled := if key = "enabled" then value else settings.enabled
      lineLength := if key = "line_length" then value else settings.lineLength
      targetVersion := if key = "target_version" then value else settings.targetVersion } := by
  unfold readFormatterMember at h
  split at h
  case h_4 => cases h
  all_goals
    obtain rfl := Except.ok.inj h
    simp

/-- The given members of an object, with the default of each that is missing. -/
def withDefaults (defaults given : List (String × Json)) : List (String × Json) :=
  defaults.map fun (key, default) ↦ (key, (given.lookup key).getD default)

/-- A value that may be missing. Settings are completed one by one, any other value stands as it
is. -/
def completeValue (given? : Option Json) : Json → Json
  | .obj defaults =>
    match given? with
    | some (.obj given) => .obj (withDefaults defaults given)
    | some value => value
    | none => .obj defaults
  | default => given?.getD default

/-- The members that are written of a configuration read from nothing. -/
def defaultMembers : List (String × Json) := ((toJson {}).toOption.map Json.members).getD []

/-- The given members with all defaults filled in. -/
def completed (given : List (String × Json)) : List (String × Json) :=
  defaultMembers.map fun (key, default) ↦ (key, completeValue (given.lookup key) default)

/-! ## What is written -/

theorem toJson_of_readFormatter {settings : FormatterSettings}
    (hkeys : (members.map Prod.fst).Nodup) (h : readFormatter members = .ok settings) :
    FormatterSettings.toJson settings =
      .obj (withDefaults (FormatterSettings.toJson {}).members members) := by
  have hpart {part : FormatterSettings → Json} {wanted : String}
      (hstep : ∀ {state key value next}, readFormatterMember state key value = .ok next →
        part next = if key = wanted then value else part state) :
      part settings = (members.lookup wanted).getD (part {}) := by
    rw [part_of_foldlM @hstep hkeys h, Option.map_id']
  have henabled := hpart fun h ↦ congrArg FormatterSettings.enabled (readFormatterMember_eq_ok h)
  have hlength := hpart fun h ↦ congrArg FormatterSettings.lineLength (readFormatterMember_eq_ok h)
  have htarget :=
    hpart fun h ↦ congrArg FormatterSettings.targetVersion (readFormatterMember_eq_ok h)
  rw [FormatterSettings.toJson, henabled, hlength, htarget]
  rfl

theorem toJson_of_formatterOf {given? : Option Json} {settings : FormatterSettings}
    (hkeys : ∀ {members}, given? = some (.obj members) → (members.map Prod.fst).Nodup)
    (h : (given?.map formatterOf).getD (some {}) = some settings) :
    FormatterSettings.toJson settings = completeValue given? (FormatterSettings.toJson {}) := by
  cases given? with
  | none =>
    obtain rfl := Option.some.inj h
    rfl
  | some value =>
    obtain ⟨members, rfl, hsettings⟩ := exists_of_formatterOf h
    rw [toJson_of_readFormatter (hkeys rfl) hsettings]
    rfl

/-- A mode that can be written was given as its label, or by default. -/
theorem label_of_readMode {mode : OutputMode} (h : readMode value = .ok (some mode)) :
    value = .str mode.label := by
  unfold readMode at h
  split at h
  · split at h
    · next label found hlabel =>
      obtain rfl := Option.some.inj (Except.ok.inj h)
      rw [OutputMode.label_of_ofLabel? hlabel]
    · cases h
  · cases h

/-- The members that are written of output settings read from nothing. -/
def defaultOutput : List (String × Json) :=
  ((OutputSettings.toJson {}).toOption.map Json.members).getD []

theorem toJson_of_readOutput {settings : OutputSettings} (h : readOutput members = .ok settings)
    (hwritten : OutputSettings.toJson settings = .ok written) :
    written = .obj (withDefaults defaultOutput members) := by
  obtain ⟨mode, hmode, hsettings⟩ := bind_eq_ok_iff.mp h
  obtain rfl := Except.ok.inj hsettings
  cases mode with
  | none => cases hwritten
  | some mode =>
    obtain rfl := Except.ok.inj hwritten
    rw [← label_of_readMode hmode]
    rfl

theorem toJson_of_outputOf {given? : Option Json} {settings : OutputSettings}
    (h : (given?.map outputOf).getD (some {}) = some settings)
    (hwritten : OutputSettings.toJson settings = .ok written) :
    written = completeValue given? (.obj defaultOutput) := by
  cases given? with
  | none =>
    obtain rfl := Option.some.inj h
    exact (Except.ok.inj hwritten).symm
  | some value =>
    obtain ⟨members, rfl, hsettings⟩ := exists_of_outputOf h
    exact toJson_of_readOutput hsettings hwritten

theorem label_of_readLanguage {start : Config} (h : readLanguage start given = .ok config) :
    config = { start with language := config.language } ∧
      .str config.language.label =
        (given.lookup "language").getD (.str start.language.label) := by
  unfold readLanguage at h
  split at h
  · next hnone =>
    obtain rfl := Except.ok.inj h
    simp [hnone]
  · next value hvalue =>
    obtain ⟨language, hlanguage, hconfig⟩ := bind_eq_ok_iff.mp h
    obtain rfl := Except.ok.inj hconfig
    unfold Language.ofJson at hlanguage
    split at hlanguage
    · next found hfound =>
      obtain rfl := Except.ok.inj hlanguage
      obtain ⟨label, hlabel, hlanguage⟩ := Option.bind_eq_some_iff.mp hfound
      obtain rfl := Schema.str?_eq_some_iff.mp hlabel
      simp [hvalue, Language.label_of_ofLabel? hlanguage]
    · cases hlanguage

/-- What is written of a configuration. Its settings have to be there, and the output mode with
them. -/
theorem toJson_eq_ok (h : toJson config = .ok written) :
    ∃ formatter output mode, config.formatter = some formatter ∧ config.output = some output ∧
      output.mode = some mode ∧ written = .obj [
        ("language", .str config.language.label),
        ("definition_prefix", config.definitionLead),
        ("ref_prefix", config.referenceLead),
        ("ignore_definitions", config.ignored),
        ("add_generation_comment", config.addComment),
        ("formatter", FormatterSettings.toJson formatter),
        ("output", .obj [
          ("mode", .str mode.label),
          ("validate_before_write", output.validate),
          ("atomic_write", output.atomic)])] := by
  unfold toJson at h
  cases hformatter : config.formatter with
  | none => simp [hformatter, throw, throwThe, MonadExceptOf.throw] at h
  | some formatter =>
    cases houtput : config.output with
    | none => simp [hformatter, houtput, throw, throwThe, MonadExceptOf.throw] at h
    | some output =>
      simp only [hformatter, houtput] at h
      obtain ⟨shown, hshown, hwritten⟩ := bind_eq_ok_iff.mp h
      cases hmode : output.mode with
      | none => simp [OutputSettings.toJson, hmode] at hshown
      | some mode =>
        simp only [OutputSettings.toJson, hmode, Except.ok.injEq] at hshown
        subst hshown
        exact ⟨formatter, output, mode, rfl, rfl, hmode, (Except.ok.inj hwritten).symm⟩

/-- What is written of a configuration is read as that configuration. -/
theorem ofJson_of_toJson (h : toJson config = .ok written) : ofJson written = .ok config := by
  obtain ⟨formatter, output, mode, hformatter, houtput, hmode, rfl⟩ := toJson_eq_ok h
  obtain ⟨language, definitionLead, referenceLead, ignored, addComment, _, _⟩ := config
  obtain ⟨_, validate, atomic⟩ := output
  subst hformatter houtput hmode
  cases language <;> cases mode <;> rfl

/-- An object in which no name comes twice, and neither in the settings that are its members. -/
def HasDistinctNames (given : List (String × Json)) : Prop :=
  (given.map Prod.fst).Nodup ∧
    ∀ {key settings}, (key, .obj settings) ∈ given → (settings.map Prod.fst).Nodup

theorem language_of_foldlM {start : Config}
    (h : members.foldlM (fun config (key, value) ↦ readMember config key value) start =
      .ok config) : config.language = start.language := by
  induction members generalizing start with
  | nil =>
    obtain rfl := Except.ok.inj h
    rfl
  | cons member rest ih =>
    rw [List.foldlM_cons] at h
    obtain ⟨middle, hfirst, hlater⟩ := bind_eq_ok_iff.mp h
    rw [ih hlater, readMember_eq_ok hfirst]

theorem toJson_of_ofMembers (hnames : HasDistinctNames given) (h : ofMembers given = .ok config)
    (hwritten : toJson config = .ok written) : written = .obj (completed given) := by
  obtain ⟨read, hread, hlanguage⟩ := bind_eq_ok_iff.mp h
  obtain ⟨hconfig, hlabel⟩ := label_of_readLanguage hlanguage
  obtain ⟨formatter, output, mode, hformatter, houtput, hmode, rfl⟩ := toJson_eq_ok hwritten
  have hpart {α : Type} (part : Config → α) {wanted : String} {value : Json → α}
      (hstep : ∀ {state key given next}, readMember state key given = .ok next →
        part next = if key = wanted then value given else part state) :
      part read = ((given.lookup wanted).map value).getD (part {}) :=
    part_of_foldlM @hstep hnames.1 hread
  have hnameLead := hpart definitionLead fun h ↦ congrArg definitionLead (readMember_eq_ok h)
  have hreferenceLead := hpart referenceLead fun h ↦ congrArg referenceLead (readMember_eq_ok h)
  have hignored := hpart ignored fun h ↦ congrArg ignored (readMember_eq_ok h)
  have haddComment := hpart addComment fun h ↦ congrArg addComment (readMember_eq_ok h)
  have hsettings := hpart Config.formatter fun h ↦ congrArg Config.formatter (readMember_eq_ok h)
  have hrules := hpart Config.output fun h ↦ congrArg Config.output (readMember_eq_ok h)
  rw [hconfig] at hformatter houtput ⊢
  rw [hformatter] at hsettings
  rw [houtput] at hrules
  have hshown : OutputSettings.toJson output = .ok (.obj [
      ("mode", .str mode.label),
      ("validate_before_write", output.validate),
      ("atomic_write", output.atomic)]) := by rw [OutputSettings.toJson, hmode]
  have hformatterShown := toJson_of_formatterOf (fun hgiven ↦ hnames.2 (mem_of_lookup hgiven))
    hsettings.symm
  have houtputShown := toJson_of_outputOf hrules.symm hshown
  rw [hformatterShown, houtputShown, hlabel, language_of_foldlM hread]
  simp only [hnameLead, hreferenceLead, hignored, haddComment, Option.map_id']
  rfl

/-- A configuration that was read from an object and written is written with the given members and
the defaults of all others. What is written is read as that configuration, which is written the same
way again. -/
theorem ofJson_written (hnames : HasDistinctNames given) (hread : ofJson (.obj given) = .ok config)
    (hwritten : toJson config = .ok written) :
    written = .obj (completed given) ∧
      ∃ again, ofJson written = .ok again ∧ again = config ∧ toJson again = .ok written :=
  ⟨toJson_of_ofMembers hnames hread hwritten, config, ofJson_of_toJson hwritten, rfl, hwritten⟩

/-- Some members, in an order of their own and partly of kinds that nothing takes. -/
def partialMembers : List (String × Json) := [
  ("output", .obj [("atomic_write", .null), ("mode", .str "error")]),
  ("definition_prefix", .arr [.int 1]),
  ("formatter", .obj [("line_length", .str "wide")]),
  ("language", .str "ts")]

theorem ofJson_written_partialMembers : HasDistinctNames partialMembers ∧
    ∃ config written, ofJson (.obj partialMembers) = .ok config ∧ toJson config = .ok written ∧
      written = .obj (completed partialMembers) ∧
      ∃ again, ofJson written = .ok again ∧ again = config ∧ toJson again = .ok written := by
  have hnames : HasDistinctNames partialMembers := by
    refine ⟨by decide, fun {key settings} hmember ↦ ?_⟩
    simp only [partialMembers, List.mem_cons, Prod.mk.injEq, Json.obj.injEq, reduceCtorEq,
      and_false, false_or, List.not_mem_nil, or_false] at hmember
    rcases hmember with ⟨-, rfl⟩ | ⟨-, rfl⟩ <;> decide
  exact ⟨hnames, _, _, rfl, rfl, ofJson_written hnames rfl rfl⟩

end Config

end SchemaModules
