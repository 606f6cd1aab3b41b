import PolicyGradient.Config.Document
import PolicyGradient.Proofs.Fields

/-!
What a document of settings says.

A document is laid over the standard settings when every setting is what the document gives for it,
or the standard value where it gives nothing; the settings of an optimizer are laid over the
standard ones in turn.  A schedule is described as a whole: its kind is named, and all fields of
that kind are there.  The readers accept a document exactly with the settings that it says.
-/

namespace PolicyGradient

open Document

variable {document : Document}

namespace Adam.Settings

/-- Settings of an optimizer, laid over the standard ones. -/
structure LaidOver (document : Document) (settings : Adam.Settings Float32) : Prop where
  readable : Readable fieldNames document
  beta1 : Sets fieldNames document "beta_1" standard.beta1 (Reads float32?) settings.beta1
  beta2 : Sets fieldNames document "beta_2" standard.beta2 (Reads float32?) settings.beta2
  epsilon : Sets fieldNames document "epsilon" standard.epsilon (Reads float32?) settings.epsilon
  decay : Sets fieldNames document "weight_decay_rate" standard.decay (Reads float32?)
    settings.decay
  maxNorm : Sets fieldNames document "max_grad_norm" standard.maxNorm
    (OrNull (Reads float32?)) settings.maxNorm

theorem nodup_fieldNames : fieldNames.Nodup := by decide

theorem ofDocument?_eq_some {settings : Adam.Settings Float32} :
    ofDocument? document = some settings ↔ LaidOver document settings := by
  have hsets {β : Type} {name : String} {default value : β} {read : Document → Option β}
      {Says : Document → β → Prop} (hread : ∀ {item}, read item = some value ↔ Says item value)
      (hreadable : Readable fieldNames document) (hname : name ∈ fieldNames) :
      withDefault? default read (field? fieldNames name document) = some value ↔
        Sets fieldNames document name default Says value :=
    withDefault?_eq_some nodup_fieldNames hreadable hname hread
  simp only [ofDocument?, Option.bind_eq_bind, Option.bind_eq_some_iff,
    fields?_eq_some nodup_fieldNames]
  constructor
  · rintro ⟨_, ⟨hreadable, rfl⟩, h⟩
    simp only [fieldNames, List.map_cons, List.map_nil, Option.bind_eq_some_iff, Option.pure_def,
      Option.some.injEq] at h
    obtain ⟨_, hbeta1, _, hbeta2, _, hepsilon, _, hdecay, _, hmaxNorm, rfl⟩ := h
    exact {
      readable := hreadable
      beta1 := (hsets Iff.rfl hreadable (by decide)).mp hbeta1
      beta2 := (hsets Iff.rfl hreadable (by decide)).mp hbeta2
      epsilon := (hsets Iff.rfl hreadable (by decide)).mp hepsilon
      decay := (hsets Iff.rfl hreadable (by decide)).mp hdecay
      maxNorm := (hsets (optional?_eq_some Iff.rfl) hreadable (by decide)).mp hmaxNorm }
  · intro h
    refine ⟨_, ⟨h.readable, rfl⟩, ?_⟩
    simp only [fieldNames, List.map_cons, List.map_nil, Option.bind_eq_some_iff, Option.pure_def,
      Option.some.injEq]
    exact ⟨_, (hsets Iff.rfl h.readable (by decide)).mpr h.beta1,
      _, (hsets Iff.rfl h.readable (by decide)).mpr h.beta2,
      _, (hsets Iff.rfl h.readable (by decide)).mpr h.epsilon,
      _, (hsets Iff.rfl h.readable (by decide)).mpr h.decay,
      _, (hsets (optional?_eq_some Iff.rfl) h.readable (by decide)).mpr h.maxNorm, rfl⟩

end Adam.Settings

namespace Schedule.Plan

/-- The kind that a document names once, with the part of the document that has the fields: the
same record, or the items after the name. -/
inductive Tagged : Document → String → Document → Prop
  | record {entries : List (String × Document)} {kind : String} :
      occurrences "type" entries ≤ 1 → ("type", .text kind) ∈ entries →
      Tagged (.record entries) kind (.record entries)
  | list {kind : String} {items : List Document} :
      Tagged (.list (.text kind :: items)) kind (.list items)

/-- A plan is of the named kind, and all its fields are there. -/
def Filled (names : List String) (body : Document) (kind : String) : Plan Float → Prop
  | constant lr => kind = "constant" ∧ Holds names body "lr" (Reads float?) lr
  | linearDecay start stop total =>
      kind = "linear_decay" ∧ Holds names body "start_lr" (Reads float?) start ∧
        Holds names body "end_lr" (Reads float?) stop ∧
        Holds names body "total_steps" IsNat total
  | warmupConstant lr steps =>
      kind = "warmup_constant" ∧ Holds names body "lr" (Reads float?) lr ∧
        Holds names body "warmup_steps" IsNat steps
  | multifactor factor steps =>
      kind = "multifactor" ∧ Holds names body "constant" (Reads float?) factor ∧
        Holds names body "warmup_steps" IsNat steps

/-- A schedule, described as a whole. -/
def Described (levels : Nat) (document : Document) (plan : Plan Float) : Prop :=
  ∃ kind body names, Tagged document kind body ∧ fieldNames? kind = some names ∧
    Readable names body ∧ document.isWhole levels = true ∧ Filled names body kind plan

theorem kind?_record (entries : List (String × Document)) :
    kind? (.record entries) =
      if occurrences "type" entries ≤ 1 then
        ((lookup? "type" entries).bind text?).map fun kind => (kind, .record entries)
      else
        none := by
  by_cases honce : occurrences "type" entries ≤ 1
  · cases htag : lookup? "type" entries with
    | none => simp [kind?, fields?, honce, htag]
    | some tag => cases hkind : tag.text? <;> simp [kind?, fields?, honce, htag, hkind]
  · simp [kind?, fields?, honce]

theorem kind?_eq_some {kind : String} {body : Document} :
    kind? document = some (kind, body) ↔ Tagged document kind body := by
  cases document with
  | record entries =>
      rw [kind?_record, Option.ite_none_right_eq_some]
      simp only [Option.map_eq_some_iff, Option.bind_eq_some_iff, text?_eq_some, Prod.mk.injEq]
      constructor
      · rintro ⟨honce, _, ⟨_, htag, rfl⟩, rfl, rfl⟩
        exact .record honce ((lookup?_eq_some honce).mp htag)
      · rintro ⟨honce, htag⟩
        exact ⟨honce, kind, ⟨_, (lookup?_eq_some honce).mpr htag, rfl⟩, rfl, rfl⟩
  | list items =>
      cases items with
      | nil => exact ⟨nofun, nofun⟩
      | cons tag items =>
          simp only [kind?, Option.bind_eq_bind, Option.bind_eq_some_iff, text?_eq_some,
            Option.pure_def, Option.some.injEq, Prod.mk.injEq]
          constructor
          · rintro ⟨_, rfl, rfl, rfl⟩
            exact .list
          · rintro ⟨⟩
            exact ⟨kind, rfl, rfl, rfl⟩
  | _ => exact ⟨nofun, nofun⟩

theorem nodup_fieldNames? {kind : String} {names : List String}
    (h : fieldNames? kind = some names) : names.Nodup := by
  unfold fieldNames? at h
  split at h <;> cases h <;> decide

theorem ofFields?_eq_some {kind : String} {names : List String} {body : Document}
    {plan : Plan Float} (hnames : fieldNames? kind = some names) (hreadable : Readable names body) :
    ofFields? kind (names.map fun name => field? names name body) = some plan ↔
      Filled names body kind plan := by
  have hfloat {name : String} {lr : Float} (hname : name ∈ names) :
      required? float? (field? names name body) = some lr ↔
        Holds names body name (Reads float?) lr :=
    required?_eq_some (nodup_fieldNames? hnames) hreadable hname Iff.rfl
  have hnat {name : String} {n : Nat} (hname : name ∈ names) :
      required? nat? (field? names name body) = some n ↔ Holds names body name IsNat n :=
    required?_eq_some (nodup_fieldNames? hnames) hreadable hname nat?_eq_some
  unfold fieldNames? at hnames
  split at hnames <;> cases hnames
  all_goals
    cases plan <;> simp [ofFields?, Filled, Option.bind_eq_some_iff, hfloat, hnat]

theorem ofDocument?_eq_some {levels : Nat} {plan : Plan Float} :
    ofDocument? levels document = some plan ↔ Described levels document plan := by
  simp only [ofDocument?, Described, Option.bind_eq_bind, Option.bind_eq_some_iff,
    Option.ite_none_right_eq_some, Prod.exists, kind?_eq_some]
  constructor
  · rintro ⟨kind, body, htagged, names, hnames, fields, hfields, hwhole, hplan⟩
    obtain ⟨hreadable, rfl⟩ := (fields?_eq_some (nodup_fieldNames? hnames)).mp hfields
    exact ⟨kind, body, names, htagged, hnames, hreadable, hwhole,
      (ofFields?_eq_some hnames hreadable).mp hplan⟩
  · rintro ⟨kind, body, names, htagged, hnames, hreadable, hwhole, hfilled⟩
    exact ⟨kind, body, htagged, names, hnames, _,
      (fields?_eq_some (nodup_fieldNames? hnames)).mpr ⟨hreadable, rfl⟩, hwhole,
      (ofFields?_eq_some hnames hreadable).mpr hfilled⟩

end Schedule.Plan

namespace Config

/-- The settings that a document is laid over. -/
abbrev base : Config Float32 Float := standard

/-- Settings of an agent, laid over the standard ones. -/
structure LaidOver (document : Document) (config : Config Float32 Float) : Prop where
  readable : Readable fieldNames document
  valueBatchSize : Sets fieldNames document "value_batch_size" base.valueBatchSize
    IsNat config.valueBatchSize
  valueSteps : Sets fieldNames document "value_train_steps_per_epoch" base.valueSteps
    IsNat config.valueSteps
  policyBatchSize : Sets fieldNames document "policy_batch_size" base.policyBatchSize
    IsNat config.policyBatchSize
  policySteps : Sets fieldNames document "policy_train_steps_per_epoch" base.policySteps
    IsNat config.policySteps
  sharedLayers : Sets fieldNames document "n_shared_layers" base.sharedLayers
    IsNat config.sharedLayers
  lookAhead : Sets fieldNames document "added_policy_slice_length" base.lookAhead
    IsNat config.lookAhead
  sliceLength : Sets fieldNames document "max_slice_length" base.sliceLength
    (OrNull IsNat) config.sliceLength
  outputDir : Sets fieldNames document "output_dir" base.outputDir
    (OrNull IsText) config.outputDir
  valueOptimizer : Sets fieldNames document "value_optimizer" base.valueOptimizer
    Adam.Settings.LaidOver config.valueOptimizer
  valueSchedule : Sets fieldNames document "value_lr_schedule" base.valueSchedule
    (Schedule.Plan.Described (deepest - 1)) config.valueSchedule
  policyOptimizer : Sets fieldNames document "policy_optimizer" base.policyOptimizer
    Adam.Settings.LaidOver config.policyOptimizer
  policySchedule : Sets fieldNames document "policy_lr_schedule" base.policySchedule
    (Schedule.Plan.Described (deepest - 1)) config.policySchedule

theorem nodup_fieldNames : fieldNames.Nodup := by decide

theorem ofDocument?_eq_some {config : Config Float32 Float} :
    ofDocument? document = some config ↔ LaidOver document config := by
  simp only [ofDocument?, Option.bind_eq_bind, Option.bind_eq_some_iff,
    fields?_eq_some nodup_fieldNames]
  have hsets {β : Type} {name : String} {default value : β} {read : Document → Option β}
      {Says : Document → β → Prop} (hread : ∀ {item}, read item = some value ↔ Says item value)
      (hreadable : Readable fieldNames document) (hname : name ∈ fieldNames) :
      withDefault? default read (field? fieldNames name document) = some value ↔
        Sets fieldNames document name default Says value :=
    withDefault?_eq_some nodup_fieldNames hreadable hname hread
  constructor
  · rintro ⟨_, ⟨hreadable, rfl⟩, h⟩
    simp only [fieldNames, List.map_cons, List.map_nil, Option.bind_eq_some_iff, Option.pure_def,
      Option.some.injEq] at h
    obtain ⟨_, hvalueBatchSize, _, hvalueSteps, _, hpolicyBatchSize, _, hpolicySteps, _,
      hsharedLayers, _, hlookAhead, _, hsliceLength, _, houtputDir, _, hvalueOptimizer, _,
      hvalueSchedule, _, hpolicyOptimizer, _, hpolicySchedule, rfl⟩ := h
    exact {
      readable := hreadable
      valueBatchSize := (hsets nat?_eq_some hreadable (by decide)).mp hvalueBatchSize
      valueSteps := (hsets nat?_eq_some hreadable (by decide)).mp hvalueSteps
      policyBatchSize := (hsets nat?_eq_some hreadable (by decide)).mp hpolicyBatchSize
      policySteps := (hsets nat?_eq_some hreadable (by decide)).mp hpolicySteps
      sharedLayers := (hsets nat?_eq_some hreadable (by decide)).mp hsharedLayers
      lookAhead := (hsets nat?_eq_some hreadable (by decide)).mp hlookAhead
      sliceLength :=
        (hsets (optional?_eq_some nat?_eq_some) hreadable (by decide)).mp hsliceLength
      outputDir :=
        (hsets (optional?_eq_some text?_eq_some) hreadable (by decide)).mp houtputDir
      valueOptimizer :=
        (hsets Adam.Settings.ofDocument?_eq_some hreadable (by decide)).mp hvalueOptimizer
      valueSchedule :=
        (hsets Schedule.Plan.ofDocument?_eq_some hreadable (by decide)).mp hvalueSchedule
      policyOptimizer :=
        (hsets Adam.Settings.ofDocument?_eq_some hreadable (by decide)).mp hpolicyOptimizer
      policySchedule :=
        (hsets Schedule.Plan.ofDocument?_eq_some hreadable (by decide)).mp hpolicySchedule }
  · intro h
    refine ⟨_, ⟨h.readable, rfl⟩, ?_⟩
    simp only [fieldNames, List.map_cons, List.map_nil, Option.bind_eq_some_iff, Option.pure_def,
      Option.some.injEq]
    exact ⟨_, (hsets nat?_eq_some h.readable (by decide)).mpr h.valueBatchSize,
      _, (hsets nat?_eq_some h.readable (by decide)).mpr h.valueSteps,
      _, (hsets nat?_eq_some h.readable (by decide)).mpr h.policyBatchSize,
      _, (hsets nat?_eq_some h.readable (by decide)).mpr h.policySteps,
      _, (hsets nat?_eq_some h.readable (by decide)).mpr h.sharedLayers,
      _, (hsets nat?_eq_some h.readable (by decide)).mpr h.lookAhead,
      _, (hsets (optional?_eq_some nat?_eq_some) h.readable (by decide)).mpr h.sliceLength,
      _, (hsets (optional?_eq_some text?_eq_some) h.readable (by decide)).mpr h.outputDir,
      _, (hsets Adam.Settings.ofDocument?_eq_some h.readable (by decide)).mpr h.valueOptimizer,
      _, (hsets Schedule.Plan.ofDocument?_eq_some h.readable (by decide)).mpr h.valueSchedule,
      _, (hsets Adam.Settings.ofDocument?_eq_some h.readable (by decide)).mpr h.policyOptimizer,
      _, (hsets Schedule.Plan.ofDocument?_eq_some h.readable (by decide)).mpr h.policySchedule, rfl⟩

end Config

namespace Clipping

/-- The setting of the clipped surrogate, laid over the standard one. -/
structure LaidOver (document : Document) (clipping : Clipping Float32) : Prop where
  readable : Readable fieldNames document
  epsilon : Sets fieldNames document "epsilon" standard.epsilon (Reads float32?) clipping.epsilon

theorem nodup_fieldNames : fieldNames.Nodup := by decide

theorem ofDocument?_eq_some {clipping : Clipping Float32} :
    ofDocument? document = some clipping ↔ LaidOver document clipping := by
  simp only [ofDocument?, Option.bind_eq_bind, Option.bind_eq_some_iff,
    fields?_eq_some nodup_fieldNames]
  constructor
  · rintro ⟨_, ⟨hreadable, rfl⟩, h⟩
    simp only [fieldNames, List.map_cons, List.map_nil, Option.bind_eq_some_iff, Option.pure_def,
      Option.some.injEq] at h
    obtain ⟨_, hepsilon, rfl⟩ := h
    exact ⟨hreadable,
      (withDefault?_eq_some nodup_fieldNames hreadable (by decide) Iff.rfl).mp hepsilon⟩
  · rintro ⟨hreadable, hepsilon⟩
    refine ⟨_, ⟨hreadable, rfl⟩, ?_⟩
    simp only [fieldNames, List.map_cons, List.map_nil, Option.bind_eq_some_iff, Option.pure_def,
      Option.some.injEq]
    exact ⟨_, (withDefault?_eq_some nodup_fieldNames hreadable (by decide) Iff.rfl).mpr hepsilon,
      rfl⟩

end Clipping

namespace Weighting

/-- Settings of advantage weighting, laid over the standard ones. -/
structure LaidOver (document : Document) (weighting : Weighting Float32) : Prop where
  readable : Readable fieldNames document
  beta : Sets fieldNames document "beta" standard.beta (Reads float32?) weighting.beta
  cap : Sets fieldNames document "w_max" standard.cap (Reads float32?) weighting.cap

theorem nodup_fieldNames : fieldNames.Nodup := by decide

theorem ofDocument?_eq_some {weighting : Weighting Float32} :
    ofDocument? document = some weighting ↔ LaidOver document weighting := by
  simp only [ofDocument?, Option.bind_eq_bind, Option.bind_eq_some_iff,
    fields?_eq_some nodup_fieldNames]
  constructor
  · rintro ⟨_, ⟨hreadable, rfl⟩, h⟩
    simp only [fieldNames, List.map_cons, List.map_nil, Option.bind_eq_some_iff, Option.pure_def,
      Option.some.injEq] at h
    obtain ⟨_, hbeta, _, hcap, rfl⟩ := h
    exact ⟨hreadable,
      (withDefault?_eq_some nodup_fieldNames hreadable (by decide) Iff.rfl).mp hbeta,
      (withDefault?_eq_some nodup_fieldNames hreadable (by decide) Iff.rfl).mp hcap⟩
  · rintro ⟨hreadable, hbeta, hcap⟩
    refine ⟨_, ⟨hreadable, rfl⟩, ?_⟩
    simp only [fieldNames, List.map_cons, List.map_nil, Option.bind_eq_some_iff, Option.pure_def,
      Option.some.injEq]
    exact ⟨_, (withDefault?_eq_some nodup_fieldNames hreadable (by decide) Iff.rfl).mpr hbeta,
      _, (withDefault?_eq_some nodup_fieldNames hreadable (by decide) Iff.rfl).mpr hcap, rfl⟩

end Weighting

/-- The settings that a document can hold. -/
inductive Schema
  | agent
  | optimizer
  /-- A schedule at most `levels` deep. -/
  | schedule (levels : Nat)
  | clipping
  | weighting

namespace Schema

def Settings : Schema → Type
  | agent => Config Float32 Float
  | optimizer => Adam.Settings Float32
  | schedule _ => Schedule.Plan Float
  | clipping => Clipping Float32
  | weighting => Weighting Float32

/-- The settings that are read from a document. -/
def read? : (schema : Schema) → Document → Option schema.Settings
  | agent => Config.ofDocument?
  | optimizer => Adam.Settings.ofDocument?
  | schedule levels => Schedule.Plan.ofDocument? levels
  | clipping => Clipping.ofDocument?
  | weighting => Weighting.ofDocument?

/-- The settings that a document says. -/
def Says : (schema : Schema) → Document → schema.Settings → Prop
  | agent => Config.LaidOver
  | optimizer => Adam.Settings.LaidOver
  | schedule levels => Schedule.Plan.Described levels
  | clipping => Clipping.LaidOver
  | weighting => Weighting.LaidOver

theorem read?_eq_some {schema : Schema} {settings : schema.Settings} :
    schema.read? document = some settings ↔ schema.Says document settings := by
  cases schema with
  | agent => exact Config.ofDocument?_eq_some
  | optimizer => exact Adam.Settings.ofDocument?_eq_some
  | schedule levels => exact Schedule.Plan.ofDocument?_eq_some
  | clipping => exact Clipping.ofDocument?_eq_some
  | weighting => exact Weighting.ofDocument?_eq_some

end Schema

end PolicyGradient
