import CodeReview.Proofs.Fields

/-! # Where a configuration comes from

    Each field of a configuration has two sources, a variable of the
    environment and a setting that is given explicitly, and a default.
    What the field holds is a function of its own sources
    (`Field.resolve`), whatever the other fields are given and in whatever
    order, and loading a configuration never fails. -/

namespace CodeReview.Config

/-! ## Mappings -/

section Mappings

variable {α : Type}

/-- In a mapping, looking up a name is finding its entry. -/
theorem lookup_eq_some_iff_mem {entries : List (String × α)} {name : String}
    {value : α} (h : (entries.map Prod.fst).Nodup) :
    entries.lookup name = some value ↔ (name, value) ∈ entries := by
  induction entries with
  | nil => exact ⟨(fun h => nomatch h), (fun h => nomatch h)⟩
  | cons entry entries ih =>
      obtain ⟨key, first⟩ := entry
      rw [List.map_cons, List.nodup_cons] at h
      rw [List.lookup_cons, List.mem_cons, Prod.mk.injEq]
      by_cases hkey : name = key
      · rw [beq_iff_eq.mpr hkey]
        constructor
        · intro hvalue
          exact .inl ⟨hkey, (Option.some.inj hvalue).symm⟩
        · rintro (⟨-, rfl⟩ | hmem)
          · rfl
          · exact absurd (List.mem_map.mpr ⟨_, hmem, hkey⟩) h.1
      · rw [beq_false_of_ne hkey]
        show entries.lookup name = some value ↔ _
        rw [ih h.2]
        exact ⟨.inr, fun hmem => hmem.resolve_left fun heq => hkey heq.1⟩

/-- The order of a mapping's entries does not matter. -/
theorem lookup_perm {entries entries' : List (String × α)}
    (h : entries'.Perm entries) (hkeys : (entries.map Prod.fst).Nodup)
    (name : String) : entries'.lookup name = entries.lookup name := by
  have hkeys' : (entries'.map Prod.fst).Nodup :=
    (h.map Prod.fst).nodup_iff.mpr hkeys
  refine Option.ext fun value => ?_
  rw [lookup_eq_some_iff_mem hkeys', lookup_eq_some_iff_mem hkeys, h.mem_iff]

/-- A value that was put is the one that its name leads to, and other names
    lead where they did. -/
theorem lookup_put (values : List (String × α)) (name other : String)
    (value : α) :
    (put values name value).lookup other
      = if other = name then some value else values.lookup other := by
  rw [put]
  split
  · rename_i hany
    have hsome : (values.lookup name).isSome = true := by
      rw [List.lookup_isSome_iff]
      obtain ⟨entry, hentry, hname⟩ := List.any_eq_true.mp hany
      exact ⟨entry, hentry, BEq.symm hname⟩
    obtain ⟨old, hold⟩ := Option.isSome_iff_exists.mp hsome
    rw [lookup_replaced, hold]
    rfl
  · rename_i hnone
    have hfresh : values.lookup name = none := by
      rw [List.lookup_eq_none_iff]
      intro entry hentry
      rw [bne_iff_ne]
      rintro rfl
      exact hnone (List.any_eq_true.mpr ⟨entry, hentry, beq_self_eq_true _⟩)
    rw [List.lookup_append]
    by_cases hother : other = name
    · rw [if_pos hother, hother, hfresh, List.lookup_cons_self]
      rfl
    · rw [if_neg hother, List.lookup_cons, beq_false_of_ne hother]
      exact Option.or_none

/-- Putting a value names nothing twice. -/
theorem nodup_keys_put {values : List (String × α)}
    (h : (values.map Prod.fst).Nodup) (name : String) (value : α) :
    ((put values name value).map Prod.fst).Nodup := by
  rw [put]
  split
  · have hsame : ((values.map fun entry =>
        if entry.1 == name then (name, value) else entry).map Prod.fst)
          = values.map Prod.fst := by
      rw [List.map_map]
      refine List.map_congr_left ?_
      intro entry _
      show (if entry.1 == name then (name, value) else entry).1 = entry.1
      split
      · rename_i hname
        exact (beq_iff_eq.mp hname).symm
      · rfl
    rw [hsame]
    exact h
  · rename_i hnone
    rw [List.map_append]
    refine List.nodup_append.mpr ⟨h, List.pairwise_singleton _ name, ?_⟩
    intro key hkey other hother heq
    rw [List.mem_singleton.mp hother] at heq
    obtain ⟨entry, hentry, rfl⟩ := List.mem_map.mp hkey
    exact hnone (List.any_eq_true.mpr ⟨entry, hentry, beq_iff_eq.mpr heq⟩)

end Mappings

section Sources

variable {V : Type} [Setting V]

/-! ## Explicit settings -/

/-- The value that settings give for a name; the last one, if several
    do. -/
def given? (settings : List (String × V)) (name : String) : Option V :=
  (settings.filter fun setting => Setting.isGiven setting.2).reverse.lookup name

/-- What settings give for a name is a value that is given. -/
theorem isGiven_of_given? {settings : List (String × V)} {name : String}
    {value : V} (h : given? settings name = some value) :
    Setting.isGiven value = true := by
  obtain ⟨front, back, hsplit, -⟩ := List.lookup_eq_some_iff.mp h
  have hmem : (name, value)
      ∈ settings.filter fun setting => Setting.isGiven setting.2 := by
    rw [← List.mem_reverse, hsplit]
    exact List.mem_append_right front List.mem_cons_self
  exact (List.mem_filter.mp hmem).2

/-- Settings stand over the values that are there. -/
theorem lookup_override (values settings : List (String × V))
    (name : String) :
    (override values settings).lookup name
      = (given? settings name).or (values.lookup name) := by
  rw [override, given?]
  induction settings.filter fun setting => Setting.isGiven setting.2 using
    List.reverseRecOn with
  | nil => rfl
  | append_singleton settings setting ih =>
      rw [List.foldl_concat, lookup_put, ih, List.reverse_append]
      show _ = (List.lookup name (setting :: settings.reverse)).or _
      rw [List.lookup_cons]
      by_cases hname : name = setting.1
      · rw [if_pos hname, beq_iff_eq.mpr hname]
        rfl
      · rw [if_neg hname, beq_false_of_ne hname]

/-- Settings that override values name nothing twice. -/
theorem nodup_keys_override {values : List (String × V)}
    (h : (values.map Prod.fst).Nodup) (settings : List (String × V)) :
    ((override values settings).map Prod.fst).Nodup := by
  rw [override]
  induction settings.filter fun setting => Setting.isGiven setting.2 using
    List.reverseRecOn with
  | nil => exact h
  | append_singleton settings setting ih =>
      rw [List.foldl_concat]
      exact nodup_keys_put ih setting.1 setting.2

/-- What settings give does not depend on their order, if each name comes
    once. -/
theorem given?_perm {settings settings' : List (String × V)}
    (h : settings'.Perm settings) (hkeys : (settings.map Prod.fst).Nodup)
    (name : String) : given? settings' name = given? settings name := by
  have hreversed : (settings'.filter fun setting => Setting.isGiven setting.2).reverse.Perm
      (settings.filter fun setting => Setting.isGiven setting.2).reverse :=
    (List.reverse_perm _).trans ((h.filter _).trans (List.reverse_perm _).symm)
  refine lookup_perm hreversed ?_ name
  rw [List.map_reverse, List.nodup_reverse]
  exact hkeys.sublist (List.filter_sublist.map Prod.fst)

/-! ## The environment -/

/-- What the text of a variable writes for a field: an integer that is not
    too small, or names with commas between them; nothing if it is blank. -/
def Field.parse? (field : Field) (raw : String) : Option FieldValue :=
  if Text.isAllBlank raw.toList then none
  else if field.isNumber then
    (Text.readInteger? raw).bind fun n =>
      if n < field.least then none else some (.number n.toNat)
  else some (.names (nameSet (splitNames raw)))

/-- The value of a variable comes to what its text writes, whatever kind of
    value stands for it. -/
theorem coerce?_ofVariable (field : Field) (raw : String) :
    (field.ofVariable raw : Logged (Option V)).value.bind field.coerce?
      = field.parse? raw := by
  rw [Field.ofVariable, Field.parse?]
  split
  · rfl
  · split
    · rename_i hnumber
      cases Text.readInteger? raw with
      | none => rfl
      | some n =>
          show field.coerce? (Setting.ofInt n : V)
            = if n < field.least then none else some (.number n.toNat)
          rw [Field.coerce?, Field.check, if_pos hnumber, Setting.integer_ofInt,
            Check.atLeast]
          by_cases hsmall : n < field.least
          · rw [if_pos hsmall, if_pos hsmall]
            rfl
          · rw [if_neg hsmall, if_neg hsmall]
            rfl
    · rename_i hnames
      show field.coerce? (Setting.ofNames (splitNames raw) : V) = _
      rw [Field.coerce?, Field.check, if_neg hnames, Setting.names_ofNames]
      rfl

/-- The value of a field's variable. -/
def variableValue? (environment : Environment) (field : Field) : Option V :=
  (environment.lookup field.variableName).bind fun raw =>
    (field.ofVariable raw).value

/-- What a variable stands for is a value that is given. -/
theorem isGiven_of_variableValue? {environment : Environment} {field : Field}
    {value : V} (h : variableValue? environment field = some value) :
    Setting.isGiven value = true := by
  obtain ⟨raw, -, hraw⟩ := Option.bind_eq_some_iff.mp h
  rw [Field.ofVariable] at hraw
  split at hraw
  · exact nomatch hraw
  · split at hraw
    · cases hinteger : Text.readInteger? raw with
      | none =>
          rw [hinteger] at hraw
          exact nomatch hraw
      | some n =>
          rw [hinteger] at hraw
          rw [← Option.some.inj hraw]
          exact Setting.isGiven_ofInt n
    · rw [← Option.some.inj hraw]
      exact Setting.isGiven_ofNames _

/-- The environment gives each field the value of its variable. -/
theorem value_environmentValues (environment : Environment) :
    (environmentValues environment : Logged (List (String × V))).value
      = Field.all.filterMap fun field =>
          (variableValue? environment field).map (field.name, ·) := by
  simp only [environmentValues, Logged.value_bind, Logged.value_mapM,
    Logged.value_pure, List.filterMap_map]
  refine List.filterMap_congr ?_
  intro field _
  rw [variableValue?, Function.comp_apply, id_eq]
  cases environment.lookup field.variableName with
  | none => rfl
  | some raw => rfl

/-- The environment names each field once. -/
theorem nodup_keys_environmentValues (environment : Environment) :
    ((environmentValues environment : Logged (List (String × V))).value.map
      Prod.fst).Nodup := by
  rw [value_environmentValues, List.map_filterMap]
  refine List.Pairwise.filterMap _ ?_ (show Field.all.Nodup by decide)
  intro field field' hne name hname name' hname' heq
  simp only [Option.map_map, Option.map_eq_some_iff, Function.comp_apply]
    at hname hname'
  obtain ⟨-, -, rfl⟩ := hname
  obtain ⟨-, -, rfl⟩ := hname'
  exact hne (Field.name_inj heq)

/-- The environment gives for a field what its own variable stands for. -/
theorem lookup_environmentValues (environment : Environment) (field : Field) :
    (environmentValues environment : Logged (List (String × V))).value.lookup
        field.name
      = variableValue? environment field := by
  refine Option.ext fun value => ?_
  rw [lookup_eq_some_iff_mem (nodup_keys_environmentValues environment),
    value_environmentValues, List.mem_filterMap]
  constructor
  · rintro ⟨field', -, h⟩
    obtain ⟨value', hvalue, heq⟩ := Option.map_eq_some_iff.mp h
    obtain ⟨hname, rfl⟩ := Prod.mk.inj heq
    rw [← Field.name_inj hname]
    exact hvalue
  · intro h
    exact ⟨field, field.mem_all, by rw [h]; rfl⟩

/-! ## What a field holds -/

/-- What a field holds after it was offered a value; nothing if the value is
    not given or not valid for it. -/
def Field.taken? (field : Field) (value : V) : Option FieldValue :=
  if Setting.isGiven value then field.coerce? value else none

/-- Taking a value sets the field it is named for, if the field takes it. -/
theorem get_accept (config : Config) (name : String) (value : V)
    (field : Field) :
    (config.accept name value).value.get field
      = if name = field.name then (field.taken? value).getD (config.get field)
        else config.get field := by
  cases hvalue : Setting.isGiven value with
  | false =>
      rw [accept_absent hvalue, Field.taken?, hvalue]
      exact (ite_self _).symm
  | true =>
    rw [Field.taken?, if_pos hvalue]
    cases hname : Field.ofName? name with
    | none =>
        -- the name of a field is known, so an unknown name is no field's
        have hne : name ≠ field.name := by
          rintro rfl
          rw [Field.ofName?_name] at hname
          exact nomatch hname
        rw [accept_unknown hvalue hname, if_neg hne]
        rfl
    | some owner =>
        rw [Field.name_of_ofName? hname, accept_known hvalue]
        cases hcheck : owner.check value with
        | valid content =>
            show (config.set owner content).get field = _
            rw [Field.get_set (Field.allows_of_check hcheck)]
            -- a valid value is held by the field it names, and no other
            -- field changes
            by_cases howner : field = owner
            · rw [if_pos howner, howner, if_pos rfl, Field.coerce?, hcheck]
              rfl
            · rw [if_neg howner,
                if_neg fun hname => howner (Field.name_inj hname).symm]
        | invalid faults =>
            show config.get field = _
            by_cases howner : field = owner
            · rw [howner, if_pos rfl, Field.coerce?, hcheck]
              rfl
            · rw [if_neg fun hname => howner (Field.name_inj hname).symm]

/-- Reading a mapping sets each field to its value, if the field takes
    it. -/
theorem get_acceptAll {values : List (String × V)}
    (h : (values.map Prod.fst).Nodup) (config : Config) (field : Field) :
    (acceptAll config values).value.get field
      = ((values.lookup field.name).bind field.taken?).getD
          (config.get field) := by
  induction values generalizing config with
  | nil => rfl
  | cons entry values ih =>
      obtain ⟨name, value⟩ := entry
      rw [List.map_cons, List.nodup_cons] at h
      show (acceptAll (config.accept name value).value values).value.get field = _
      rw [ih h.2, get_accept, List.lookup_cons]
      by_cases hname : name = field.name
      · -- no later value is for the field
        have hrest : values.lookup field.name = none := by
          rw [List.lookup_eq_none_iff]
          intro entry hentry
          rw [bne_iff_ne, ← hname]
          rintro rfl
          exact h.1 (List.mem_map.mpr ⟨entry, hentry, rfl⟩)
        rw [hrest, if_pos hname, beq_iff_eq.mpr hname.symm]
        rfl
      · rw [if_neg hname, beq_false_of_ne (Ne.symm hname)]

/-- What a field holds after strict reading of a value for it and nothing
    else; nothing if there is a fault. -/
def Field.alone? (field : Field) (value : V) : Option FieldValue :=
  match ofMembers [(field.name, value)] with
  | .valid config => some (config.get field)
  | .invalid _ => none

/-- Checking a value for a field gives the same as reading a configuration
    with nothing else in it. -/
theorem coerce?_eq_alone? (field : Field) (value : V) :
    field.coerce? value = field.alone? value := by
  rw [Field.coerce?, Field.alone?]
  cases hcheck : field.check value with
  | valid content =>
      have hmembers : ofMembers [(field.name, value)]
          = .valid (set {} field content) :=
        (accepted_nil.put hcheck).ofMembers_eq
      rw [hmembers]
      have hget := Field.get_set (Field.allows_of_check hcheck) {} field
      rw [if_pos rfl] at hget
      exact congrArg some hget.symm
  | invalid faults =>
      have hmember : member? [(field.name, value)] field.name = some value :=
        List.lookup_cons_self
      rw [ofMembers_invalid hmember hcheck]
      intro other hother given hgiven
      have hnone : member? [(field.name, value)] other.name = none := by
        show List.lookup other.name [(field.name, value)] = none
        rw [List.lookup_cons,
          beq_false_of_ne fun hname => hother (Field.name_inj hname)]
        rfl
      rw [hnone] at hgiven
      cases hgiven

/-- What a field holds, given the text of its variable and its explicit
    setting.  A setting decides alone: where it is not valid, the default
    applies.  Without one the variable does, if its text writes a value that
    is valid. -/
def Field.resolve (field : Field) (raw? : Option String)
    (setting? : Option V) : FieldValue :=
  match setting? with
  | some value => (field.alone? value).getD (get {} field)
  | none => (raw?.bind field.parse?).getD (get {} field)

/-- **ONE FIELD**: what is loaded for a field comes from its own variable
    and its own setting. -/
theorem get_load (environment : Environment) (settings : List (String × V))
    (field : Field) :
    (load environment settings).value.get field
      = field.resolve (environment.lookup field.variableName)
          (given? settings field.name) := by
  have hkeys := nodup_keys_override
    (nodup_keys_environmentValues (V := V) environment) settings
  show (acceptAll {} (override (environmentValues environment).value
    settings)).value.get field = _
  -- each name comes once, so a field takes the one value given for it: the
  -- setting, or else what its variable stands for
  rw [get_acceptAll hkeys, lookup_override, lookup_environmentValues]
  cases hsetting : given? settings field.name with
  | some value =>
      rw [Option.some_or, Option.bind_some, Field.taken?,
        if_pos (isGiven_of_given? hsetting), coerce?_eq_alone?]
      rfl
  | none =>
      rw [Option.none_or]
      show _ = ((environment.lookup field.variableName).bind
        field.parse?).getD _
      cases hraw : environment.lookup field.variableName with
      | none =>
          rw [variableValue?, hraw]
          rfl
      | some raw =>
          rw [Option.bind_some, ← coerce?_ofVariable (V := V)]
          have hvariable : variableValue? environment field
              = (field.ofVariable raw : Logged (Option V)).value := by
            rw [variableValue?, hraw, Option.bind_some]
          rw [← hvariable]
          cases hvalue : variableValue? (V := V) environment field with
          | none => rfl
          | some value =>
              rw [Option.bind_some, Option.bind_some, Field.taken?,
                if_pos (isGiven_of_variableValue? hvalue)]

/-! ## Valid configurations -/

/-- Whether every field of a configuration holds what it may. -/
def IsValid (config : Config) : Prop :=
  ∀ field : Field, field.Allows (config.get field)

/-- The default of every field passes the field's own check. -/
theorem isValid_default : IsValid {} := by
  intro field
  cases field with
  | ignoreDirs => exact ⟨rfl, by decide⟩
  | ignoreFiles => exact ⟨rfl, List.Pairwise.nil⟩
  | _ => exact ⟨rfl, by decide⟩

/-- What a field takes over from the configuration of a value, it may
    hold. -/
theorem Field.allows_of_alone? {field : Field} {value : V}
    {content : FieldValue} (h : field.alone? value = some content) :
    field.Allows content := by
  rw [← coerce?_eq_alone?, coerce?] at h
  cases hcheck : field.check value with
  | valid content' =>
      rw [hcheck] at h
      rw [← Option.some.inj h]
      exact allows_of_check hcheck
  | invalid faults =>
      rw [hcheck] at h
      cases h

/-- What a variable's text writes is something the field may hold. -/
theorem Field.allows_of_parse? {field : Field} {raw : String}
    {content : FieldValue} (h : field.parse? raw = some content) :
    field.Allows content := by
  rw [parse?] at h
  split at h
  · exact nomatch h
  · split at h
    · rename_i hnumber
      obtain ⟨n, -, hn⟩ := Option.bind_eq_some_iff.mp h
      split at hn
      · exact nomatch hn
      · rw [← Option.some.inj hn]
        exact ⟨hnumber, by omega⟩
    · rename_i hnames
      rw [← Option.some.inj h]
      exact ⟨Bool.not_eq_true _ ▸ hnames, pairwise_nameSet _⟩

/-- Whatever its sources give, a field holds what it may. -/
theorem Field.allows_resolve (field : Field) (raw? : Option String)
    (setting? : Option V) : field.Allows (field.resolve raw? setting?) := by
  cases setting? with
  | some value =>
      show field.Allows ((field.alone? value).getD (get {} field))
      cases hvalue : field.alone? value with
      | none => exact isValid_default field
      | some content => exact allows_of_alone? hvalue
  | none =>
      show field.Allows ((raw?.bind field.parse?).getD (get {} field))
      cases hvalue : raw?.bind field.parse? with
      | none => exact isValid_default field
      | some content =>
          obtain ⟨raw, -, hraw⟩ := Option.bind_eq_some_iff.mp hvalue
          exact allows_of_parse? hraw

/-- Loading a configuration with each value checked together with all that
    were accepted before it, and the whole once more at the end. -/
def loadTogether (environment : Environment) (settings : List (String × V)) :
    Logged (Checked Config) := do
  let values ← environmentValues environment
  readTogether (override values settings)

/-- Checking each value together with all accepted ones, and all once more,
    loads the same configuration and never fails. -/
theorem loadTogether_eq (environment : Environment)
    (settings : List (String × V)) :
    loadTogether environment settings
      = Checked.valid <$> load environment settings := by
  simp only [loadTogether, load, readTogether_eq, map_bind]

end Sources

end CodeReview.Config
