import SchemaModules.Package.Basic
import SchemaModules.Proofs.AsciiIdentifiers
import SchemaModules.Proofs.DeclarationScope
import SchemaModules.Proofs.Lookup
import SchemaModules.Proofs.RegistrationOrder

/-!
# Names that a loaded module looks up

The functions of a module look up two functions of the registry module and the registry document of
their own module each time they are called. The names that the module derives from the name of its
definition all begin with a capital letter or an underscore, or are longer, except for the short
name of the class. The main statement says which short names take one of those three away.
-/

namespace SchemaModules

open Naming Python Text

variable {name short long : String} {bindings : List (String × Binding)}

/-! ## Last bindings -/

namespace Python

theorem bindingOf?_eq_none_iff :
    bindingOf? bindings name = none ↔ name ∉ bindings.map Prod.fst := by
  rw [bindingOf?, lookup_eq_none_iff_notMem, List.map_reverse, List.mem_reverse]

theorem bindingOf?_append (first second : List (String × Binding)) (name : String) :
    bindingOf? (first ++ second) name =
      (bindingOf? second name).or (bindingOf? first name) := by
  rw [bindingOf?, List.reverse_append, List.lookup_append]
  rfl

theorem bindingOf?_of_notMem {after : List (String × Binding)} {binding : Binding}
    (h : name ∉ after.map Prod.fst) (before : List (String × Binding)) :
    bindingOf? (before ++ (name, binding) :: after) name = some binding := by
  rw [List.append_cons, bindingOf?_append, bindingOf?_eq_none_iff.mpr h, Option.none_or,
    bindingOf?_append]
  simp [bindingOf?]

/-- A name that the module itself gives a meaning to. -/
def BindsOwn (bindings : List (String × Binding)) (name : String) : Prop :=
  ∃ binding, bindingOf? bindings name = some binding ∧ ∀ source, binding ≠ .support source

theorem bindingOf?_bindAlias (hlong : (bindingOf? bindings long).isSome) (short name : String) :
    bindingOf? (bindAlias bindings short long) name =
      if name = short then bindingOf? bindings long else bindingOf? bindings name := by
  obtain ⟨binding, hbinding⟩ := Option.isSome_iff_exists.mp hlong
  rw [bindAlias, hbinding, bindingOf?_append]
  by_cases hname : name = short
  · simp [bindingOf?, hname]
  · simp [bindingOf?, hname, List.lookup_cons, beq_eq_false_iff_ne.mpr hname]

theorem bindingOf?_bindAlias_of_ne (h : name ≠ short) :
    bindingOf? (bindAlias bindings short long) name = bindingOf? bindings name := by
  rw [bindAlias]
  split
  · rw [bindingOf?_append, bindingOf?_eq_none_iff.mpr (by simpa using h), Option.none_or]
  · rfl

/-- Names that are no aliases keep their meaning. -/
theorem bindingOf?_foldl_bindAlias {pairs : List (String × String)}
    (h : name ∉ pairs.map Prod.fst) :
    bindingOf? (pairs.foldl (fun bindings (short, long) ↦ bindAlias bindings short long) bindings)
      name = bindingOf? bindings name := by
  induction pairs generalizing bindings with
  | nil => rfl
  | cons pair rest ih =>
    obtain ⟨hfirst, hrest⟩ := not_or.mp (List.mem_cons.not.mp h)
    rw [List.foldl_cons, ih hrest, bindingOf?_bindAlias_of_ne hfirst]

/-- Aliases of names that the module gives a meaning to take their meaning from the module. -/
theorem bindsOwn_foldl_bindAlias {pairs : List (String × String)}
    (hlong : ∀ pair ∈ pairs, BindsOwn bindings pair.2)
    (hname : name ∈ pairs.map Prod.fst ∨ BindsOwn bindings name) :
    BindsOwn (pairs.foldl (fun bindings (short, long) ↦ bindAlias bindings short long) bindings)
      name := by
  induction pairs generalizing bindings with
  | nil => exact hname.resolve_left List.not_mem_nil
  | cons pair rest ih =>
    obtain ⟨short, long⟩ := pair
    obtain ⟨binding, hbinding, hown⟩ := hlong (short, long) List.mem_cons_self
    have hstep (other : String) (hother : other = short ∨ BindsOwn bindings other) :
        BindsOwn (bindAlias bindings short long) other := by
      rw [BindsOwn, bindingOf?_bindAlias (by simp [hbinding])]
      by_cases hsame : other = short
      · exact ⟨binding, by rw [if_pos hsame, hbinding], hown⟩
      · rw [if_neg hsame]
        exact hother.resolve_left hsame
    apply ih
    · intro other hother
      exact hstep other.2 (.inr (hlong other (List.mem_cons_of_mem _ hother)))
    · rcases hname with hmem | hbound
      · rcases List.mem_cons.mp hmem with rfl | hrest
        · exact .inr (hstep _ (.inl rfl))
        · exact .inl hrest
      · exact .inr (hstep name (.inr hbound))

end Python

/-- A text that begins with a small letter, as no derived name but a short one does. -/
def beginsSmall (text : String) : Bool := text.toList.head?.any Char.isLower

theorem beginsSmall_className_append (h : HasIdentifiers name) {suffix : String}
    (hsuffix : beginsSmall suffix = false) : beginsSmall (className name ++ suffix) = false := by
  rw [beginsSmall, String.toList_append, List.head?_append]
  cases hhead : (className name).toList.head? with
  | none => exact hsuffix
  | some c => simp [isLower_head_className h.isAscii hhead]

theorem beginsSmall_className (h : HasIdentifiers name) : beginsSmall (className name) = false := by
  have hempty : beginsSmall (className name ++ "") = false :=
    beginsSmall_className_append h (by decide)
  rwa [String.append_empty] at hempty

theorem beginsSmall_of_isHoisted (h : IsHoisted name) : beginsSmall name = false := by
  obtain ⟨rest, rfl⟩ := h
  rw [beginsSmall, String.toList_append]
  rfl

theorem beginsSmall_interface (short : String) : beginsSmall ("I" ++ short) = false := by
  rw [beginsSmall, String.toList_append]
  rfl

/-! ## The module of a definition -/

namespace Package

variable {conventions : Conventions} {schema : Json} {key : String}

/-- The functions of the registry module that the functions of a module look up. -/
def lookedUpNames : List String := [getRegistryName, addDocumentName]

/-- The functions of a module find what they look up when they are called. -/
structure KeepsLookups (definition : Definition) : Prop where
  support : ∀ key ∈ lookedUpNames, bindingIn definition key = some (.support key)
  document : bindingIn definition definition.names.schemaName = some .document

/-- The names bound after the import of the registry module and before the aliases. -/
def derivedBindings (m : Module) : List (String × Binding) :=
  m.nested.map (fun record ↦ (record.name, .record)) ++
    [(m.definition.names.interfaceName, m.interface.binding),
      (m.definition.names.schemaName, .document),
      (m.definition.names.addSchemaName, .registration),
      (m.definition.names.className,
        if m.definition.isObject then .valueClass else m.interface.binding)]

theorem exists_declared_eq (m : Module) : ∃ before, m.declared =
    before ++ (addDocumentName, .support addDocumentName) ::
      (getRegistryName, .support getRegistryName) :: derivedBindings m := by
  refine ⟨(TypingName.all.filter m.imports.contains).map (fun name ↦ (name.text, .typing name)) ++
    (if m.definition.isObject then [("BaseModel", .support "BaseModel")] else []) ++
      [("SchemaRegistry", .support "SchemaRegistry")], ?_⟩
  simp [Module.declared, derivedBindings]

theorem isHoisted_of_mem_nested {record : Record}
    (h : record ∈ (Module.of (.of conventions name schema)).nested) : IsHoisted record.name := by
  have hname : ∃ rest, (Definition.of conventions name schema).names.interfaceName = "I" ++ rest :=
    ⟨className name, rfl⟩
  exact (hoists_declareInterface hname).hoisted record.name (List.mem_map_of_mem h)

theorem notMem_derivedBindings (hname : HasIdentifiers name) (hkey : beginsSmall key = true) :
    key ∉ (derivedBindings (Module.of (.of conventions name schema))).map Prod.fst := by
  intro hmem
  have hsmall : beginsSmall key = false := by
    rw [derivedBindings, List.map_append, List.mem_append] at hmem
    rcases hmem with hnested | hown
    · obtain ⟨binding, hbinding, rfl⟩ := List.mem_map.mp hnested
      obtain ⟨record, hrecord, rfl⟩ := List.mem_map.mp hbinding
      exact beginsSmall_of_isHoisted (isHoisted_of_mem_nested hrecord)
    · simp only [List.map_cons, List.map_nil, List.mem_cons, List.not_mem_nil, or_false] at hown
      rcases hown with rfl | rfl | rfl | rfl
      · exact beginsSmall_interface (className name)
      · exact beginsSmall_className_append hname (by decide)
      · exact beginsSmall_className_append hname (by decide)
      · exact beginsSmall_className hname
  rw [hsmall] at hkey
  cases hkey

/-- Before the aliases the functions of the registry module stand under their names. -/
theorem bindingOf?_declared_of_lookedUp (hname : HasIdentifiers name) (hkey : key ∈ lookedUpNames) :
    bindingOf? (Module.of (.of conventions name schema)).declared key = some (.support key) := by
  obtain ⟨before, hdeclared⟩ := exists_declared_eq (Module.of (.of conventions name schema))
  have hderived : ∀ key ∈ lookedUpNames,
      key ∉ (derivedBindings (Module.of (.of conventions name schema))).map Prod.fst :=
    fun key hkey ↦ notMem_derivedBindings hname
      ((by decide : ∀ key ∈ lookedUpNames, beginsSmall key = true) key hkey)
  rw [hdeclared]
  simp only [lookedUpNames, List.mem_cons, List.not_mem_nil, or_false] at hkey
  rcases hkey with rfl | rfl
  · rw [List.append_cons]
    exact bindingOf?_of_notMem (hderived _ (by decide)) _
  · refine bindingOf?_of_notMem ?_ _
    rw [List.map_cons, List.mem_cons, not_or]
    exact ⟨by decide, hderived _ (by decide)⟩

theorem length_schemaName (name : String) :
    (schemaName name).length = (className name).length + 6 := by
  rw [schemaName, String.length_append]
  rfl

theorem length_addSchemaName (name : String) :
    (addSchemaName name).length = (className name).length + 9 := by
  rw [addSchemaName, String.length_append]
  rfl

theorem length_interfaceName (name : String) :
    (interfaceName name).length = (className name).length + 1 := by
  rw [interfaceName, String.length_append, Nat.add_comm]
  rfl

theorem ne_of_length_ne {first second : String} (h : first.length ≠ second.length) :
    first ≠ second :=
  fun hsame ↦ h (congrArg String.length hsame)

theorem exists_declared_eq_append (conventions : Conventions) (name : String) (schema : Json) :
    ∃ before interface own, (Module.of (.of conventions name schema)).declared =
        before ++ [(interfaceName name, interface), (schemaName name, .document),
          (addSchemaName name, .registration), (className name, own)] ∧
      (∀ source, interface ≠ .support source) ∧ ∀ source, own ≠ .support source := by
  obtain ⟨before, hdeclared⟩ := exists_declared_eq (Module.of (.of conventions name schema))
  rw [derivedBindings, ← List.cons_append, ← List.cons_append, ← List.append_assoc] at hdeclared
  have hinterface (source : String) :
      (Module.of (.of conventions name schema)).interface.binding ≠ .support source := by
    cases (Module.of (.of conventions name schema)).interface <;> simp [Declaration.binding]
  refine ⟨_, _, _, hdeclared, hinterface, fun source ↦ ?_⟩
  split
  · exact Binding.noConfusion
  · exact hinterface source

theorem bindingOf?_declared_schemaName :
    bindingOf? (Module.of (.of conventions name schema)).declared (schemaName name) =
      some .document := by
  obtain ⟨before, interface, own, hdeclared, -⟩ := exists_declared_eq_append conventions name schema
  rw [hdeclared, List.append_cons]
  refine bindingOf?_of_notMem ?_ _
  have hfunction := length_addSchemaName name
  have hdocument := length_schemaName name
  simp only [List.map_cons, List.map_nil, List.mem_cons, List.not_mem_nil, or_false, not_or]
  exact ⟨ne_of_length_ne (by omega), ne_of_length_ne (by omega)⟩

theorem bindsOwn_interfaceName :
    BindsOwn (Module.of (.of conventions name schema)).declared (interfaceName name) := by
  obtain ⟨before, interface, own, hdeclared, hinterface, -⟩ :=
    exists_declared_eq_append conventions name schema
  refine ⟨interface, ?_, hinterface⟩
  rw [hdeclared]
  refine bindingOf?_of_notMem ?_ _
  have hfunction := length_addSchemaName name
  have hdocument := length_schemaName name
  have hlong := length_interfaceName name
  simp only [List.map_cons, List.map_nil, List.mem_cons, List.not_mem_nil, or_false, not_or]
  exact ⟨ne_of_length_ne (by omega), ne_of_length_ne (by omega), ne_of_length_ne (by omega)⟩

theorem bindsOwn_className :
    BindsOwn (Module.of (.of conventions name schema)).declared (className name) := by
  obtain ⟨before, interface, own, hdeclared, -, hown⟩ :=
    exists_declared_eq_append conventions name schema
  refine ⟨own, ?_, hown⟩
  rw [hdeclared, List.append_cons, List.append_cons, List.append_cons]
  exact bindingOf?_of_notMem (List.not_mem_nil) _

theorem bindingIn_eq (definition : Definition) (key : String) :
    bindingIn definition key = bindingOf? ((aliases definition.names).foldl
      (fun bindings (short, long) ↦ bindAlias bindings short long) (Module.of definition).declared)
      key := rfl

theorem isAsciiIdentifier_interface (h : isAsciiIdentifier part = true) :
    isAsciiIdentifier ("I" ++ part) = true := by
  have hall : part.toList.all (fun c ↦ c.isAlphanum || c = '_') = true := by
    refine List.all_eq_true.mpr fun c hc ↦ ?_
    simpa using of_mem_isAsciiIdentifier h hc
  rw [isAsciiIdentifier, String.toList_append]
  simpa using hall

theorem aliases_eq (conventions : Conventions) (name : String) : aliases (conventions.names name) =
    [(importable (shortInterfaceName name), interfaceName name),
      (importable (shortClassName name), className name)].filter
        fun (short, long) ↦ short != long := rfl

theorem mem_aliases_cases (h : key ∈ (aliases (conventions.names name)).map Prod.fst) :
    key = importable (shortInterfaceName name) ∨ key = importable (shortClassName name) := by
  rw [aliases_eq] at h
  have hmem := (List.filter_sublist.map Prod.fst).subset h
  simpa only [List.map_cons, List.map_nil, List.mem_cons, List.not_mem_nil, or_false] using hmem

theorem importable_shortClassName_mem_aliases
    (h : importable (shortClassName name) ≠ className name) :
    importable (shortClassName name) ∈ (aliases (conventions.names name)).map Prod.fst := by
  rw [aliases_eq]
  generalize importable (shortClassName name) = short at h ⊢
  generalize className name = long at h ⊢
  have hmem : (short, long) ∈ [(importable (shortInterfaceName name), interfaceName name),
      (short, long)].filter fun (short, long) ↦ short != long :=
    List.mem_filter.mpr ⟨List.mem_cons_of_mem _ List.mem_cons_self, bne_iff_ne.mpr h⟩
  exact List.mem_map_of_mem (f := Prod.fst) hmem

/-- Of the aliases only the short name of the class can be one of the names looked up. -/
theorem mem_aliases_iff (hname : HasIdentifiers name) (hkey : key ∈ lookedUpNames) :
    key ∈ (aliases (conventions.names name)).map Prod.fst ↔ shortClassName name = key := by
  obtain ⟨hsmall, hend, hself⟩ : beginsSmall key = true ∧ key.toList.getLast? ≠ some '_' ∧
      importable key = key :=
    (by decide +kernel : ∀ key ∈ lookedUpNames, beginsSmall key = true ∧
      key.toList.getLast? ≠ some '_' ∧ importable key = key) key hkey
  have hshort := hname _ (shortClassName_mem name)
  constructor
  · intro hmem
    rcases mem_aliases_cases hmem with hinterface | hclass
    · have hcapital : beginsSmall key = false := by
        rw [hinterface, shortInterfaceName,
          importable_of_isAsciiIdentifier (isAsciiIdentifier_interface hshort)]
        rcases guardReserved_eq ("I" ++ shortClassName name) with heq | heq <;> rw [heq]
        · exact beginsSmall_interface _
        · rw [String.append_assoc]
          exact beginsSmall_interface _
      rw [hcapital] at hsmall
      cases hsmall
    · rw [importable_of_isAsciiIdentifier hshort] at hclass
      rcases guardReserved_eq (shortClassName name) with heq | heq
      · exact (hclass.trans heq).symm
      · rw [hclass, heq, String.toList_append] at hend
        exact absurd List.getLast?_concat hend
  · rintro rfl
    have hdiffer : importable (shortClassName name) ≠ className name := by
      intro hsame
      have hclass := beginsSmall_className hname
      rw [← hsame, hself, hsmall] at hclass
      cases hclass
    exact hself ▸ importable_shortClassName_mem_aliases hdiffer

/-- The document has a longer name than every alias. -/
theorem schemaName_notMem_aliases (hname : HasIdentifiers name) :
    schemaName name ∉ (aliases (conventions.names name)).map Prod.fst := by
  intro hmem
  have hclass := hname.length_shortClassName_le
  have hlong := length_schemaName name
  rcases mem_aliases_cases hmem with hinterface | hshort
  · have hbound := length_importable_le (shortInterfaceName name)
    have hletter : (shortInterfaceName name).length = (shortClassName name).length + 1 := by
      rw [shortInterfaceName, String.length_append, Nat.add_comm]
      rfl
    rw [← hinterface] at hbound
    omega
  · have hbound := length_importable_le (shortClassName name)
    rw [← hshort] at hbound
    omega

/-- For a name made of identifiers, the functions of the module find what they look up unless the
short name of the class is the name of one of the two functions they call. -/
theorem keepsLookups_iff (hname : HasIdentifiers name) :
    KeepsLookups (.of conventions name schema) ↔ shortClassName name ∉ lookedUpNames := by
  have hnames : (Definition.of conventions name schema).names = conventions.names name := rfl
  constructor
  · intro hkeeps hshort
    have halias : shortClassName name ∈ (aliases (conventions.names name)).map Prod.fst :=
      (mem_aliases_iff hname hshort).mpr rfl
    -- What an alias binds comes from the class or the interface, never from the registry module.
    have hlong : ∀ pair ∈ aliases (conventions.names name),
        BindsOwn (Module.of (.of conventions name schema)).declared pair.2 := by
      intro pair hpair
      have hmem := (List.mem_filter.mp hpair).1
      simp only [List.mem_cons, List.not_mem_nil, or_false] at hmem
      rcases hmem with rfl | rfl
      · exact bindsOwn_interfaceName
      · exact bindsOwn_className
    obtain ⟨binding, hbinding, hown⟩ := bindsOwn_foldl_bindAlias hlong (.inl halias)
    have hsupport := hkeeps.support _ hshort
    rw [bindingIn_eq, hnames, hbinding] at hsupport
    exact hown _ (Option.some.inj hsupport)
  · intro hshort
    refine ⟨fun key hkey ↦ ?_, ?_⟩
    · have hfree : key ∉ (aliases (conventions.names name)).map Prod.fst := fun hmem ↦
        hshort ((mem_aliases_iff hname hkey).mp hmem ▸ hkey)
      rw [bindingIn_eq, hnames, bindingOf?_foldl_bindAlias hfree]
      exact bindingOf?_declared_of_lookedUp hname hkey
    · have hschema : (conventions.names name).schemaName = schemaName name := rfl
      rw [bindingIn_eq, hnames, hschema,
        bindingOf?_foldl_bindAlias (schemaName_notMem_aliases hname)]
      exact bindingOf?_declared_schemaName

theorem keepsLookups_plainName : HasIdentifiers "x.Foo" ∧
    KeepsLookups (.of ⟨.python, "", "#/definitions/"⟩ "x.Foo" (.obj [("type", .str "object")])) :=
  have hname : HasIdentifiers "x.Foo" := by decide
  ⟨hname, (keepsLookups_iff hname).mpr (by decide)⟩

/-- A definition whose short name is that of the function that adds a document. -/
def definitionsCalledAddSchema : List (String × Json) :=
  [("x.add_schema", .obj [("type", .str "object")])]

/-- The alias takes the place of the function, and nothing is registered. -/
theorem not_keepsLookups_definitionsCalledAddSchema :
    HasIdentifiers "x.add_schema" ∧ ∃ package definition,
      Package.of {} definitionsCalledAddSchema = .ok package ∧
      package.definitions.lookup "x.add_schema" = some definition ∧
      isSupport (bindingIn definition addDocumentName) = false ∧ ¬KeepsLookups definition ∧
      (package.register definition {}).2.isOk = false ∧
      (package.register definition {}).1.names = [] := by
  refine ⟨by decide, ?_⟩
  have hchecked : (Package.of {} definitionsCalledAddSchema).toOption.any (fun package ↦
      (package.definitions.lookup "x.add_schema").any fun definition ↦
        decide (isSupport (bindingIn definition addDocumentName) = false ∧
          (package.register definition {}).2.isOk = false ∧
          (package.register definition {}).1.names = [])) = true := by
    decide +kernel
  obtain ⟨package, hpackage, hchecked⟩ := exists_eq_ok_of_check hchecked
  obtain ⟨definition, hlookup, hchecked⟩ := (Option.any_eq_true _ _).mp hchecked
  obtain ⟨hcaptured, houtcome⟩ := of_decide_eq_true hchecked
  refine ⟨package, definition, hpackage, hlookup, hcaptured, fun hkeeps ↦ ?_, houtcome⟩
  rw [hkeeps.support addDocumentName (by decide)] at hcaptured
  cases hcaptured

end Package

end SchemaModules
