import Mathlib.Data.List.Nodup
import Mathlib.Data.String.Basic
import CodeReview.Config.Environment
import CodeReview.Proofs.Distinct

/-! # Fields of a configuration

    A configuration is what its fields hold.  Whatever kind of value it is,
    a value that passes the check of a field may stand in it
    (`Field.allows_of_check`), and it changes that field and no other
    (`Field.get_set`), so that strict reading decides each field on its
    own.  Lenient reading can be done in two ways: field by field, or with
    each value checked together with all that were accepted before it and
    the whole once more at the end.  The second way never ends in a fault,
    and the two agree (`readTogether_eq`). -/

namespace CodeReview

namespace Checked

variable {α β : Type}

/-- What is made of a checked value is valid only if the value is. -/
theorem map_eq_valid {f : α → β} {x : Checked α} {b : β}
    (h : f <$> x = .valid b) : ∃ a, x = .valid a ∧ f a = b := by
  cases x with
  | valid a => exact ⟨a, rfl, Checked.valid.inj h⟩
  | invalid faults => exact nomatch h

end Checked

namespace Config

/-- Configurations that hold the same in every field are equal. -/
theorem ext_get {c c' : Config} (h : ∀ field, c.get field = c'.get field) :
    c = c' := by
  obtain ⟨a₁, a₂, a₃, a₄, a₅, a₆, a₇⟩ := c
  obtain ⟨b₁, b₂, b₃, b₄, b₅, b₆, b₇⟩ := c'
  rw [Config.mk.injEq]
  exact ⟨FieldValue.number.inj (h .maxLineLength),
    FieldValue.number.inj (h .maxMethodLength),
    FieldValue.number.inj (h .maxFileSize),
    FieldValue.number.inj (h .complexityThreshold),
    FieldValue.number.inj (h .displayLimit),
    FieldValue.names.inj (h .ignoreDirs), FieldValue.names.inj (h .ignoreFiles)⟩

namespace Field

/-- Every field is among those that a mapping is read for. -/
theorem mem_all (field : Field) : field ∈ all := by
  cases field <;> decide

/-- No two fields share a name. -/
theorem name_inj {field field' : Field} (h : field.name = field'.name) :
    field = field' := by
  have hsome : some field = some field' := by
    rw [← ofName?_name field, h, ofName?_name]
  exact Option.some.inj hsome

/-- A field is found by its own name only. -/
theorem name_of_ofName? {name : String} {field : Field}
    (h : ofName? name = some field) : name = field.name := by
  have hname := List.find?_some h
  exact (beq_iff_eq.mp hname).symm

/-- Whether a field may hold a value: a number that is not too small, or
    names in increasing order, each once. -/
def Allows (field : Field) : FieldValue → Prop
  | .number n => field.isNumber = true ∧ field.least ≤ n
  | .names names => field.isNumber = false ∧ names.Pairwise (· < ·)

/-- A value that a field may hold is held by it, and by no other. -/
theorem get_set {field : Field} {content : FieldValue}
    (h : field.Allows content) (config : Config) (other : Field) :
    (config.set field content).get other
      = if other = field then content else config.get other := by
  cases content with
  | number n =>
      obtain ⟨hnumber, -⟩ := h
      cases field with
      | ignoreDirs => exact nomatch hnumber
      | ignoreFiles => exact nomatch hnumber
      | _ => cases other <;> rfl
  | names names =>
      obtain ⟨hnames, -⟩ := h
      cases field with
      | ignoreDirs => cases other <;> rfl
      | ignoreFiles => cases other <;> rfl
      | _ => exact nomatch hnames

end Field

/-! ## Names in order -/

/-- Without its copies a list is what is left of it, in the same order. -/
theorem eraseDups_sublist (names : List String) :
    names.eraseDups.Sublist names := by
  induction names using List.reverseRecOn with
  | nil => exact List.Sublist.refl _
  | append_singleton names name ih =>
      by_cases hname : name ∈ names
      · rw [eraseDups_concat_of_mem hname]
        exact ih.trans (List.sublist_append_left _ _)
      · rw [eraseDups_concat_of_not_mem hname]
        exact ih.append (List.Sublist.refl _)

/-- A set of names is in increasing order, with each name once. -/
theorem pairwise_nameSet (names : List String) :
    (nameSet names).Pairwise (· < ·) := by
  have hsorted : (names.mergeSort fun a b => decide (a ≤ b)).Pairwise (· ≤ ·) := by
    refine (List.pairwise_mergeSort ?_ ?_ names).imp of_decide_eq_true
    · intro a b c hab hbc
      exact decide_eq_true (le_trans (of_decide_eq_true hab) (of_decide_eq_true hbc))
    · intro a b
      rw [Bool.or_eq_true, decide_eq_true_eq, decide_eq_true_eq]
      exact le_total a b
  have hle : (nameSet names).Pairwise (· ≤ ·) :=
    hsorted.sublist (eraseDups_sublist _)
  exact (hle.and (nodup_eraseDups _)).imp fun h => lt_of_le_of_ne h.1 h.2

/-! ## Members -/

/-- What is found after the value of a name is replaced. -/
theorem lookup_replaced {α : Type} (values : List (String × α))
    (name other : String) (value : α) :
    (values.map fun entry =>
        if entry.1 == name then (name, value) else entry).lookup other
      = if other = name then (values.lookup name).map fun _ => value
        else values.lookup other := by
  induction values with
  | nil => cases hother : decide (other = name) <;> simp_all
  | cons entry values ih =>
      obtain ⟨key, old⟩ := entry
      rw [List.map_cons, List.lookup_cons, List.lookup_cons, ih]
      by_cases hkey : key = name <;> by_cases hother : other = name <;> grind

/-- Setting a value changes one member. -/
theorem member?_put {α : Type} (values : List (String × α))
    (name other : String) (value : α) :
    member? (put values name value) other
      = if other = name then some value else member? values other := by
  rw [member?, member?, put]
  split
  · rename_i hany
    rw [← List.map_reverse, lookup_replaced]
    have hsome : (values.reverse.lookup name).isSome = true := by
      rw [List.lookup_isSome_iff]
      obtain ⟨entry, hentry, hname⟩ := List.any_eq_true.mp hany
      exact ⟨entry, List.mem_reverse.mpr hentry, BEq.symm hname⟩
    obtain ⟨old, hold⟩ := Option.isSome_iff_exists.mp hsome
    rw [hold]
    rfl
  · rw [List.reverse_append]
    show ((name, value) :: values.reverse).lookup other = _
    rw [List.lookup_cons]
    by_cases hother : other = name
    · rw [if_pos hother, beq_iff_eq.mpr hother]
    · rw [if_neg hother, beq_false_of_ne hother]

/-! ## Checked values -/

section Reading

variable {V : Type} [Setting V]

/-- What a field holds after it took a value; nothing if the value is not
    valid for it. -/
def Field.coerce? (field : Field) (value : V) : Option FieldValue :=
  match field.check value with
  | .valid content => some content
  | .invalid _ => none

/-- A number that passes a bound is not below it. -/
theorem atLeast_eq_valid {bound n : Nat} {integer : Checked Int}
    (h : Check.atLeast bound integer = .valid n) : bound ≤ n := by
  cases integer with
  | invalid faults => exact nomatch h
  | valid z =>
      rw [Check.atLeast] at h
      split at h
      · exact nomatch h
      · have hn := Checked.valid.inj h
        omega

/-- A value that passes the check of a field may stand in it, whatever kind
    of value it is. -/
theorem Field.allows_of_check {field : Field} {value : V}
    {content : FieldValue} (h : field.check value = .valid content) :
    field.Allows content := by
  rw [check] at h
  split at h
  · rename_i hnumber
    obtain ⟨n, hn, rfl⟩ := Checked.map_eq_valid h
    exact ⟨hnumber, atLeast_eq_valid hn⟩
  · rename_i hnames
    obtain ⟨names, -, rfl⟩ := Checked.map_eq_valid h
    exact ⟨Bool.not_eq_true _ ▸ hnames, pairwise_nameSet names⟩

/-! ## Strict reading -/

/-- What members give for a field; nothing if there is none or an invalid
    one. -/
def memberValue? (members : List (String × V)) (field : Field) :
    Option FieldValue :=
  (member? members field.name).bind field.coerce?

/-- Whether members hold no invalid one for a field. -/
def SoundAt (members : List (String × V)) (field : Field) : Prop :=
  ∀ value, member? members field.name = some value → field.coerce? value ≠ none

/-- A sound member sets its field. -/
theorem exists_takeMember {members : List (String × V)} {field : Field}
    (h : SoundAt members field) (config : Config) :
    ∃ config', takeMember members (.valid config) field = .valid config'
      ∧ ∀ other, config'.get other
          = if other = field then
              (memberValue? members field).getD (config.get field)
            else config.get other := by
  rw [takeMember, memberValue?]
  cases hmember : member? members field.name with
  | none =>
      refine ⟨config, rfl, ?_⟩
      intro other
      split
      · rename_i heq
        rw [heq]
        rfl
      · rfl
  | some value =>
      have hvalue := h value hmember
      rw [Option.bind_some]
      -- a sound value is valid, so the field takes it
      cases hcheck : field.check value with
      | invalid faults =>
          rw [Field.coerce?, hcheck] at hvalue
          exact absurd rfl hvalue
      | valid content =>
          refine ⟨config.set field content, by simp only [hcheck]; rfl, ?_⟩
          intro other
          rw [Field.get_set (Field.allows_of_check hcheck), Field.coerce?,
            hcheck]
          rfl

/-- Faults stay when a sound member is taken. -/
theorem takeMember_invalid {members : List (String × V)} {field : Field}
    (h : SoundAt members field) (faults : List Fault) :
    takeMember members (.invalid faults) field = .invalid faults := by
  rw [takeMember]
  cases hmember : member? members field.name with
  | none => rfl
  | some value =>
      have hvalue := h value hmember
      cases hcheck : field.check value with
      | invalid faults' =>
          rw [Field.coerce?, hcheck] at hvalue
          exact absurd rfl hvalue
      | valid content =>
          simp only [hcheck]
          exact congrArg Checked.invalid (List.append_nil faults)

/-- Sound members are taken one after the other. -/
theorem exists_foldl_takeMember {members : List (String × V)}
    {fields : List Field} (h : ∀ field ∈ fields, SoundAt members field)
    (config : Config) :
    ∃ config', fields.foldl (takeMember members) (.valid config) = .valid config'
      ∧ ∀ other, config'.get other
          = if other ∈ fields then
              (memberValue? members other).getD (config.get other)
            else config.get other := by
  induction fields generalizing config with
  | nil => exact ⟨config, rfl, fun other => (if_neg List.not_mem_nil).symm⟩
  | cons field fields ih =>
      rw [List.forall_mem_cons] at h
      obtain ⟨next, hnext, hget⟩ := exists_takeMember h.1 config
      obtain ⟨last, hlast, hget'⟩ := ih h.2 next
      refine ⟨last, by rw [List.foldl_cons, hnext, hlast], ?_⟩
      intro other
      rw [hget', hget]
      by_cases heq : other = field
      · subst heq
        simp only [if_true, List.mem_cons, true_or]
        cases memberValue? members other <;> simp
      · simp only [heq, if_false, List.mem_cons, false_or]

/-- Members that are all sound are read, each into its field. -/
theorem exists_ofMembers {members : List (String × V)}
    (h : ∀ field, SoundAt members field) :
    ∃ config, ofMembers members = .valid config
      ∧ ∀ field, config.get field
          = (memberValue? members field).getD (get {} field) := by
  obtain ⟨config, hconfig, hget⟩ :=
    exists_foldl_takeMember (fun field _ => h field) {}
  refine ⟨config, hconfig, ?_⟩
  intro field
  rw [hget, if_pos field.mem_all]

/-- Members of which one is invalid have the faults of that one. -/
theorem ofMembers_invalid {members : List (String × V)} {field : Field}
    {value : V} {faults : List Fault}
    (hmember : member? members field.name = some value)
    (hcheck : field.check value = .invalid faults)
    (h : ∀ other, other ≠ field → SoundAt members other) :
    ofMembers members
      = .invalid (faults.map fun f => { f with place := field.name :: f.place }) := by
  obtain ⟨before, after, hall⟩ := List.append_of_mem field.mem_all
  have hnodup : (before ++ field :: after).Nodup := hall ▸ (by decide)
  obtain ⟨-, hfresh, hapart⟩ := List.nodup_append.mp hnodup
  -- the fields before the invalid one are read, those behind it add nothing
  have hbefore : ∀ other ∈ before, SoundAt members other :=
    fun other hother => h other (hapart other hother field List.mem_cons_self)
  have hafter : ∀ other ∈ after, SoundAt members other := by
    intro other hother
    refine h other ?_
    rintro rfl
    exact (List.nodup_cons.mp hfresh).1 hother
  obtain ⟨config, hconfig, -⟩ := exists_foldl_takeMember hbefore {}
  have hfault : takeMember members (.valid config) field
      = .invalid (faults.map fun f => { f with place := field.name :: f.place }) := by
    rw [takeMember, hmember]
    simp only [hcheck]
    rfl
  rw [ofMembers, hall, List.foldl_append, hconfig, List.foldl_cons, hfault]
  clear hall hnodup hfresh hapart
  induction after with
  | nil => rfl
  | cons other after ih =>
      rw [List.forall_mem_cons] at hafter
      rw [List.foldl_cons, takeMember_invalid hafter.1]
      exact ih hafter.2

/-! ## Lenient reading -/

/-- Takes a value into those accepted so far, if they are valid with it, or
    leaves it with a warning. -/
def acceptTogether (accepted : List (String × V)) (name : String)
    (value : V) : Logged (List (String × V)) :=
  if !Setting.isGiven value then pure accepted
  else
    match Field.ofName? name with
    | none => do
        warnUnknown name
        return accepted
    | some _ =>
        match ofMembers (put accepted name value) with
        | .valid _ => pure (put accepted name value)
        | .invalid faults => do
            warnInvalid name value faults
            return accepted

/-- Takes values one after the other, each together with those accepted
    before it. -/
def acceptAllTogether (accepted : List (String × V)) :
    List (String × V) → Logged (List (String × V))
  | [] => pure accepted
  | (name, value) :: rest => do
      let accepted ← acceptTogether accepted name value
      acceptAllTogether accepted rest

/-- Lenient reading of a mapping by strict reading: of each value with all
    that were accepted before it, and of all accepted ones in the end. -/
def readTogether (values : List (String × V)) : Logged (Checked Config) := do
  let accepted ← acceptAllTogether [] values
  return ofMembers accepted

/-- Accepted values are those of a configuration: all are valid, and the
    configuration holds them where they are given. -/
structure Accepted (accepted : List (String × V)) (config : Config) :
    Prop where
  sound : ∀ field, SoundAt accepted field
  get_eq : ∀ field, config.get field
    = (memberValue? accepted field).getD (get {} field)

/-- Accepted values pass when they are checked together once more, and give
    the configuration. -/
theorem Accepted.ofMembers_eq {accepted : List (String × V)}
    {config : Config} (h : Accepted accepted config) :
    ofMembers accepted = .valid config := by
  obtain ⟨config', hconfig', hget⟩ := exists_ofMembers h.sound
  have heq : config' = config :=
    ext_get fun field => (hget field).trans (h.get_eq field).symm
  rw [hconfig', heq]

/-- Before anything is taken, nothing is accepted and every field has its
    default. -/
theorem accepted_nil : Accepted ([] : List (String × V)) {} where
  sound := fun _ _ h => nomatch h
  get_eq := fun _ => rfl

variable {accepted : List (String × V)} {config : Config} {name : String}
  {value : V}

/-- A value that is not given changes nothing. -/
theorem accept_absent (hvalue : Setting.isGiven value = false) :
    config.accept name value = pure config := by
  rw [accept, hvalue]
  rfl

/-- A value that is not given changes nothing, checked together with others
    as well. -/
theorem acceptTogether_absent (hvalue : Setting.isGiven value = false) :
    acceptTogether accepted name value = pure accepted := by
  rw [acceptTogether, hvalue]
  rfl

/-- A name that belongs to no field is passed over with a warning. -/
theorem accept_unknown (hvalue : Setting.isGiven value = true)
    (hname : Field.ofName? name = none) :
    config.accept name value = (do warnUnknown name; return config) := by
  rw [accept, hvalue, hname]
  rfl

/-- A name that belongs to no field is passed over with the same warning
    when values are checked together. -/
theorem acceptTogether_unknown (hvalue : Setting.isGiven value = true)
    (hname : Field.ofName? name = none) :
    acceptTogether accepted name value
      = (do warnUnknown name; return accepted) := by
  rw [acceptTogether, hvalue, hname]
  rfl

/-- A value for a field is taken if it is valid, and leaves a warning
    otherwise. -/
theorem accept_known (hvalue : Setting.isGiven value = true) (field : Field) :
    config.accept field.name value
      = match field.check value with
        | .valid content => pure (config.set field content)
        | .invalid faults => do
            warnInvalid field.name value faults
            return config := by
  rw [accept, hvalue, Field.ofName?_name]
  rfl

/-- A value for a field is taken if it is valid together with those before
    it, and leaves the same warning otherwise. -/
theorem acceptTogether_known (hvalue : Setting.isGiven value = true)
    (field : Field) :
    acceptTogether accepted field.name value
      = match ofMembers (put accepted field.name value) with
        | .valid _ => pure (put accepted field.name value)
        | .invalid faults => do
            warnInvalid field.name value faults
            return accepted := by
  rw [acceptTogether, hvalue, Field.ofName?_name]
  rfl

/-- A valid value keeps all accepted ones valid. -/
theorem Accepted.put (h : Accepted accepted config) {field : Field}
    {content : FieldValue} (hcheck : field.check value = .valid content) :
    Accepted (Config.put accepted field.name value)
      (config.set field content) := by
  have hcoerce : field.coerce? value = some content := by
    rw [Field.coerce?, hcheck]
  constructor
  · intro other given hgiven
    rw [member?_put] at hgiven
    split at hgiven
    · rename_i hname
      rw [← Option.some.inj hgiven, Field.name_inj hname, hcoerce]
      exact Option.some_ne_none _
    · exact h.sound other given hgiven
  · intro other
    rw [Field.get_set (Field.allows_of_check hcheck), memberValue?, member?_put]
    by_cases hother : other = field
    · rw [if_pos hother, if_pos (congrArg Field.name hother), hother,
        Option.bind_some, hcoerce]
      rfl
    · rw [if_neg hother, if_neg fun hname => hother (Field.name_inj hname)]
      exact h.get_eq other

/-- A value is accepted together with others if it is accepted alone, and
    refused with the same warning. -/
theorem Accepted.step (h : Accepted accepted config) (name : String)
    (value : V) :
    (acceptTogether accepted name value).log = (config.accept name value).log
      ∧ Accepted (acceptTogether accepted name value).value
          (config.accept name value).value := by
  cases hvalue : Setting.isGiven value with
  | false =>
      rw [accept_absent hvalue, acceptTogether_absent hvalue]
      exact ⟨rfl, h⟩
  | true =>
    cases hname : Field.ofName? name with
    | none =>
        rw [accept_unknown hvalue hname, acceptTogether_unknown hvalue hname]
        exact ⟨rfl, h⟩
    | some field =>
        rw [Field.name_of_ofName? hname, accept_known hvalue,
          acceptTogether_known hvalue]
        cases hcheck : field.check value with
        | valid content =>
            have hput := h.put hcheck
            rw [hput.ofMembers_eq]
            exact ⟨rfl, hput⟩
        | invalid faults =>
            have hmember : member? (Config.put accepted field.name value)
                field.name = some value := by rw [member?_put, if_pos rfl]
            have hother : ∀ other, other ≠ field →
                SoundAt (Config.put accepted field.name value) other := by
              intro other hne given hgiven
              rw [member?_put,
                if_neg fun hname => hne (Field.name_inj hname)] at hgiven
              exact h.sound other given hgiven
            rw [ofMembers_invalid hmember hcheck hother]
            -- the place of the first fault is not part of its wording
            cases faults with
            | nil => exact ⟨rfl, h⟩
            | cons fault faults => exact ⟨rfl, h⟩

/-- Accepted values stay those of the configuration that is read field by
    field. -/
theorem Accepted.run (values : List (String × V)) :
    ∀ {accepted : List (String × V)} {config : Config},
      Accepted accepted config →
        (acceptAllTogether accepted values).log = (acceptAll config values).log
          ∧ Accepted (acceptAllTogether accepted values).value
              (acceptAll config values).value := by
  induction values with
  | nil => exact fun h => ⟨rfl, h⟩
  | cons entry values ih =>
      intro accepted config h
      obtain ⟨name, value⟩ := entry
      obtain ⟨hlog, hnext⟩ := h.step name value
      obtain ⟨hlog', hlast⟩ := ih hnext
      refine ⟨?_, hlast⟩
      rw [acceptAllTogether, acceptAll, Logged.log_bind, Logged.log_bind, hlog,
        hlog']

/-- **READING TOGETHER**: checking each value together with all accepted
    ones, and all of them once more, never ends in a fault; it gives the
    configuration and the warnings of reading field by field. -/
theorem readTogether_eq (values : List (String × V)) :
    readTogether values = Checked.valid <$> ofMapping values := by
  obtain ⟨hlog, hlast⟩ := (accepted_nil (V := V)).run values
  have hvalue : (readTogether values).value = .valid (ofMapping values).value :=
    hlast.ofMembers_eq
  have hlog' : (readTogether values).log = (ofMapping values).log := by
    rw [readTogether, Logged.log_bind, hlog]
    exact List.append_nil _
  calc readTogether values
      = ⟨(readTogether values).value, (readTogether values).log⟩ := rfl
    _ = ⟨.valid (ofMapping values).value, (ofMapping values).log ++ []⟩ := by
        rw [hvalue, hlog', List.append_nil]
    _ = Checked.valid <$> ofMapping values := rfl

end Reading

end Config

end CodeReview
