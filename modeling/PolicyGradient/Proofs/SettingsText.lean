import Mathlib
import PolicyGradient.Document.Reader
import PolicyGradient.Proofs.Layouts

/-!
Settings in the form of texts.

What can be wrong with a document of settings is `Flawed`, at any depth, and a flaw refuses the
document as a whole.  `settings_of_text` puts this beside what the document of a text says and the
layouts that it may have.
-/

namespace PolicyGradient

open Document

namespace Schema

variable {document body : Document} {names : List String} {name : String} {item : Document}

/-- What can be read for a field. -/
def Content.Accepts : Content → Document → Prop
  | whole, item => ∃ n, IsNat item n
  | single, item => ∃ x, float32? item = some x
  | double, item => ∃ x, float? item = some x
  | text, item => ∃ text, IsText item text
  | settings schema, item => ∃ settings, schema.read? item = some settings
  | optional content, item => item = .null ∨ content.Accepts item

/-- The item of a field is one that can be read for it. -/
def Fits (schema : Schema) (name : String) (item : Document) : Prop :=
  ∃ content, schema.content? name = some content ∧ content.Accepts item

theorem exists_of_orNull {β : Type} {Says : Document → β → Prop} {value : Option β}
    (h : OrNull Says item value) : item = .null ∨ ∃ x, Says item x := by
  cases h with
  | null => exact .inl rfl
  | held _ hx => exact .inr ⟨_, hx⟩

/-- Every item that settings are read from fits its field. -/
theorem fits_of_agent {config : Config Float32 Float} (h : Config.LaidOver document config)
    (hgives : Gives Config.fieldNames document name item) : agent.Fits name item := by
  have hname := hgives.mem
  simp only [Config.fieldNames, List.mem_cons, List.not_mem_nil, or_false] at hname
  rcases hname with rfl | rfl | rfl | rfl | rfl | rfl | rfl | rfl | rfl | rfl | rfl | rfl
  · exact ⟨_, rfl, _, h.valueBatchSize.1 item hgives⟩
  · exact ⟨_, rfl, _, h.valueSteps.1 item hgives⟩
  · exact ⟨_, rfl, _, h.policyBatchSize.1 item hgives⟩
  · exact ⟨_, rfl, _, h.policySteps.1 item hgives⟩
  · exact ⟨_, rfl, _, h.sharedLayers.1 item hgives⟩
  · exact ⟨_, rfl, _, h.lookAhead.1 item hgives⟩
  · exact ⟨_, rfl, exists_of_orNull (h.sliceLength.1 item hgives)⟩
  · exact ⟨_, rfl, exists_of_orNull (h.outputDir.1 item hgives)⟩
  · exact ⟨_, rfl, _, read?_eq_some.mpr (h.valueOptimizer.1 item hgives)⟩
  · exact ⟨_, rfl, _, read?_eq_some.mpr (h.valueSchedule.1 item hgives)⟩
  · exact ⟨_, rfl, _, read?_eq_some.mpr (h.policyOptimizer.1 item hgives)⟩
  · exact ⟨_, rfl, _, read?_eq_some.mpr (h.policySchedule.1 item hgives)⟩

theorem fits_of_optimizer {settings : Adam.Settings Float32}
    (h : Adam.Settings.LaidOver document settings)
    (hgives : Gives Adam.Settings.fieldNames document name item) : optimizer.Fits name item := by
  have hname := hgives.mem
  simp only [Adam.Settings.fieldNames, List.mem_cons, List.not_mem_nil, or_false] at hname
  rcases hname with rfl | rfl | rfl | rfl | rfl
  · exact ⟨_, rfl, _, h.beta1.1 item hgives⟩
  · exact ⟨_, rfl, _, h.beta2.1 item hgives⟩
  · exact ⟨_, rfl, _, h.epsilon.1 item hgives⟩
  · exact ⟨_, rfl, _, h.decay.1 item hgives⟩
  · exact ⟨_, rfl, exists_of_orNull (h.maxNorm.1 item hgives)⟩

theorem fits_of_clipping {clipping : Clipping Float32} (h : Clipping.LaidOver document clipping)
    (hgives : Gives Clipping.fieldNames document name item) : Schema.clipping.Fits name item := by
  have hname := hgives.mem
  simp only [Clipping.fieldNames, List.mem_cons, List.not_mem_nil, or_false] at hname
  subst hname
  exact ⟨_, rfl, _, h.epsilon.1 item hgives⟩

theorem fits_of_weighting {weighting : Weighting Float32}
    (h : Weighting.LaidOver document weighting)
    (hgives : Gives Weighting.fieldNames document name item) : Schema.weighting.Fits name item := by
  have hname := hgives.mem
  simp only [Weighting.fieldNames, List.mem_cons, List.not_mem_nil, or_false] at hname
  rcases hname with rfl | rfl
  · exact ⟨_, rfl, _, h.beta.1 item hgives⟩
  · exact ⟨_, rfl, _, h.cap.1 item hgives⟩

theorem exists_fits {schema : Schema} {content : Content} {β : Type} {value : β}
    {Says : Document → β → Prop} (hcontent : schema.content? name = some content)
    (haccepts : ∀ item, Says item value → content.Accepts item)
    (hholds : Holds names body name Says value) :
    ∃ item, Gives names body name item ∧ schema.Fits name item := by
  obtain ⟨item, hitem, hvalue⟩ := hholds
  exact ⟨item, hitem, content, hcontent, haccepts item hvalue⟩

/-- The fields of a kind of schedule are all there, with items that fit. -/
theorem fits_of_filled (levels : Nat) {kind : String} {plan : Schedule.Plan Float}
    (hnames : Schedule.Plan.fieldNames? kind = some names)
    (h : Schedule.Plan.Filled names body kind plan) (hname : name ∈ names) :
    ∃ item, Gives names body name item ∧ (schedule levels).Fits name item := by
  have hfloat {name : String} {lr : Float}
      (hcontent : (schedule levels).content? name = some .double) :
      Holds names body name (Reads float?) lr →
        ∃ item, Gives names body name item ∧ (schedule levels).Fits name item :=
    exists_fits hcontent fun item hitem => ⟨lr, hitem⟩
  have hnat {name : String} {n : Nat}
      (hcontent : (schedule levels).content? name = some .whole) :
      Holds names body name IsNat n →
        ∃ item, Gives names body name item ∧ (schedule levels).Fits name item :=
    exists_fits hcontent fun item hitem => ⟨n, hitem⟩
  cases plan with
  | constant lr =>
      obtain ⟨rfl, hlr⟩ := h
      cases hnames
      obtain rfl := List.mem_singleton.mp hname
      exact hfloat rfl hlr
  | linearDecay start stop total =>
      obtain ⟨rfl, hstart, hstop, htotal⟩ := h
      cases hnames
      simp only [List.mem_cons, List.not_mem_nil, or_false] at hname
      rcases hname with rfl | rfl | rfl
      · exact hfloat rfl hstart
      · exact hfloat rfl hstop
      · exact hnat rfl htotal
  | warmupConstant lr steps =>
      obtain ⟨rfl, hlr, hsteps⟩ := h
      cases hnames
      simp only [List.mem_cons, List.not_mem_nil, or_false] at hname
      rcases hname with rfl | rfl
      · exact hfloat rfl hlr
      · exact hnat rfl hsteps
  | multifactor factor steps =>
      obtain ⟨rfl, hfactor, hsteps⟩ := h
      cases hnames
      simp only [List.mem_cons, List.not_mem_nil, or_false] at hname
      rcases hname with rfl | rfl
      · exact hfloat rfl hfactor
      · exact hnat rfl hsteps

/-- A document names one kind of schedule. -/
theorem tagged_unique {kind kind' : String} {body body' : Document}
    (h : Schedule.Plan.Tagged document kind body)
    (h' : Schedule.Plan.Tagged document kind' body') : kind = kind' ∧ body = body' := by
  rw [← Schedule.Plan.kind?_eq_some] at h h'
  exact Prod.mk.inj (Option.some.inj (h.symm.trans h'))

/-- Settings are read from documents whose fields can be told apart and fit. -/
theorem readable_and_fits {schema : Schema} {settings : schema.Settings}
    (h : schema.Says document settings) (hfields : schema.Fields document names body) :
    Readable names body ∧ ∀ {name item}, Gives names body name item → schema.Fits name item := by
  cases hfields with
  | agent => exact ⟨h.readable, fits_of_agent h⟩
  | optimizer => exact ⟨h.readable, fits_of_optimizer h⟩
  | clipping => exact ⟨h.readable, fits_of_clipping h⟩
  | weighting => exact ⟨h.readable, fits_of_weighting h⟩
  | schedule htagged hnames =>
      obtain ⟨kind', body', names', htagged', hnames', hreadable, _, hfilled⟩ := h
      obtain ⟨rfl, rfl⟩ := tagged_unique htagged htagged'
      obtain rfl := Option.some.inj (hnames.symm.trans hnames')
      refine ⟨hreadable, fun {name item} hgives => ?_⟩
      obtain ⟨item', hgives', hfits⟩ := fits_of_filled _ hnames hfilled hgives.mem
      obtain rfl :=
        hgives'.unique (Schedule.Plan.nodup_fieldNames? hnames) hreadable hgives.mem hgives
      exact hfits

/-- What settings are read from fits. -/
theorem fits_of_read {schema : Schema} {settings : schema.Settings}
    (hread : schema.read? document = some settings)
    (hfields : schema.Fields document names body) (hgives : Gives names body name item) :
    schema.Fits name item :=
  (readable_and_fits (read?_eq_some.mp hread) hfields).2 hgives

/-- What is wrong with a document of settings, wherever in it. -/
inductive Flawed : Schema → Document → Prop
  /-- A key that is known occurs twice. -/
  | twice {schema : Schema} {entries : List (String × Document)} {key : String} :
      schema.Knows (.record entries) key → 1 < occurrences key entries →
      Flawed schema (.record entries)
  /-- A schedule does not name its kind. -/
  | untagged {levels : Nat} {entries : List (String × Document)} :
      (∀ kind, ("type", .text kind) ∉ entries) → Flawed (schedule levels) (.record entries)
  /-- A schedule lacks a field of its kind. -/
  | lacking {levels : Nat} {document body : Document} {names : List String} {name : String} :
      (schedule levels).Fields document names body → name ∈ names →
      (∀ item, ¬ Gives names body name item) → Flawed (schedule levels) document
  /-- An integer field holds another number. -/
  | integer {schema : Schema} {document body : Document} {names : List String} {name : String}
      {x : Numeral} :
      schema.Fields document names body → Gives names body name (.number x) →
      schema.content? name = some .whole ∨ schema.content? name = some (.optional .whole) →
      ¬ x.IsNatural → Flawed schema document
  /-- A field that is not optional holds null. -/
  | null {schema : Schema} {document body : Document} {names : List String} {name : String} :
      schema.Fields document names body → Gives names body name .null →
      (∀ content, schema.content? name ≠ some (.optional content)) → Flawed schema document
  /-- Settings within the settings are flawed. -/
  | inside {schema child : Schema} {document body item : Document} {names : List String}
      {name : String} :
      schema.Fields document names body → Gives names body name item →
      schema.child? name = some child → Flawed child item → Flawed schema document

theorem Fields.body_of_record {schema : Schema} {entries : List (String × Document)}
    (h : schema.Fields (.record entries) names body) : body = .record entries := by
  cases h with
  | schedule htagged _ => cases htagged; rfl
  | _ => rfl

theorem read?_null (schema : Schema) : schema.read? .null = none := by
  cases schema <;> rfl

/-- Only optional fields accept null. -/
theorem Content.optional_of_accepts_null {content : Content} (h : content.Accepts .null) :
    ∃ inner, content = .optional inner := by
  cases content with
  | optional inner => exact ⟨inner, rfl⟩
  | settings schema =>
      obtain ⟨settings, hread⟩ := h
      rw [read?_null] at hread
      cases hread
  | whole =>
      obtain ⟨_, _, hnumber, _⟩ := h
      cases hnumber
  | _ =>
      obtain ⟨_, hread⟩ := h
      cases hread

theorem content?_of_child? {schema child : Schema} (h : schema.child? name = some child) :
    schema.content? name = some (.settings child) := by
  unfold child? at h
  split at h <;> cases h
  assumption

/-- Flawed settings are refused as a whole. -/
theorem Flawed.read?_eq_none {schema : Schema} (h : schema.Flawed document) :
    schema.read? document = none := by
  rw [Option.eq_none_iff_forall_ne_some]
  induction h with
  | twice hknows htwice =>
      intro settings hread
      have hsaid := read?_eq_some.mp hread
      cases hknows with
      | kind =>
          obtain ⟨_, _, _, ⟨honce, _⟩, _⟩ := hsaid
          omega
      | field hfields hname =>
          obtain rfl := hfields.body_of_record
          have honce := (readable_and_fits hsaid hfields).1 _ hname
          omega
  | untagged habsent =>
      intro settings hread
      obtain ⟨kind, _, _, ⟨_, hmem⟩, _⟩ := read?_eq_some.mp hread
      exact habsent kind hmem
  | @lacking levels document body names name hfields hname habsent =>
      intro settings hread
      obtain ⟨kind', body', names', htagged', hnames', _, _, hfilled⟩ := read?_eq_some.mp hread
      cases hfields with
      | schedule htagged hnames =>
          obtain ⟨rfl, rfl⟩ := tagged_unique htagged htagged'
          obtain rfl := Option.some.inj (hnames.symm.trans hnames')
          obtain ⟨item, hgives, _⟩ := fits_of_filled levels hnames hfilled hname
          exact habsent item hgives
  | @integer schema document body names name x hfields hgives hcontent hx =>
      intro settings hread
      obtain ⟨content, hcontent', hfits⟩ := fits_of_read hread hfields hgives
      have hnat : ∃ n, IsNat (.number x) n := by
        rcases hcontent with hcontent | hcontent
        · obtain rfl := Option.some.inj (hcontent.symm.trans hcontent')
          exact hfits
        · obtain rfl := Option.some.inj (hcontent.symm.trans hcontent')
          exact hfits.resolve_left nofun
      obtain ⟨_, y, hy, hnatural, _⟩ := hnat
      cases hy
      exact hx hnatural
  | null hfields hgives hcontent =>
      intro settings hread
      obtain ⟨content, hcontent', hfits⟩ := fits_of_read hread hfields hgives
      obtain ⟨inner, rfl⟩ := Content.optional_of_accepts_null hfits
      exact hcontent inner hcontent'
  | inside hfields hgives hchild _ ih =>
      intro settings hread
      obtain ⟨content, hcontent, hfits⟩ := fits_of_read hread hfields hgives
      rw [content?_of_child? hchild] at hcontent
      cases hcontent
      obtain ⟨inner, hinner⟩ := hfits
      exact ih inner hinner

/-- The settings that are read from a text. -/
def ofText? (schema : Schema) (source : String) : Option schema.Settings :=
  (parse? source).bind schema.read?

/-- What is read from a text of settings: what its document says, in every layout, and nothing when
it is flawed. -/
theorem settings_of_text (schema : Schema) {source : String} {document : Document}
    (hparse : parse? source = some document) :
    (∀ settings, schema.ofText? source = some settings ↔ schema.Says document settings) ∧
    (∀ source' document', parse? source' = some document' →
      Relaid (some schema) document document' → schema.ofText? source' = schema.ofText? source) ∧
    (schema.Flawed document → schema.ofText? source = none) := by
  have hread : schema.ofText? source = schema.read? document := by
    rw [ofText?, hparse, Option.bind_some]
  rw [hread]
  refine ⟨fun settings => read?_eq_some, ?_, Flawed.read?_eq_none⟩
  intro source' document' hparse' hrelaid
  rw [ofText?, hparse', Option.bind_some]
  exact (hrelaid.alike.read schema rfl).symm

/-- Settings of an optimizer in single precision, one with a point and one without. -/
def clippedTenth : Document :=
  .record [("beta_1", .number ⟨false, 1, 1, 0, false⟩),
    ("max_grad_norm", .number ⟨false, 2, 0, 0, true⟩)]

/-- Such an optimizer for the value model, and a constant rate of one quarter. -/
def constantRate : Document :=
  .record [("value_optimizer", clippedTenth), ("value_lr_schedule",
    .record [("type", .text "constant"), ("lr", .number ⟨false, 25, 2, 0, false⟩)])]

def constantRateText : String :=
  "\x7b\"value_optimizer\":\x7b\"beta_1\":0.1,\"max_grad_norm\":2\x7d," ++
    "\"value_lr_schedule\":\x7b\"type\":\"constant\",\"lr\":0.25\x7d\x7d"

/-- The kind of the schedule comes last, and another entry first. -/
def movedRate : Document :=
  .record [("note", .null), ("value_optimizer", clippedTenth), ("value_lr_schedule",
    .record [("lr", .number ⟨false, 25, 2, 0, false⟩), ("type", .text "constant")])]

def movedRateText : String :=
  "\x7b\"note\":null,\"value_optimizer\":\x7b\"beta_1\":0.1,\"max_grad_norm\":2\x7d," ++
    "\"value_lr_schedule\":\x7b\"lr\":0.25,\"type\":\"constant\"\x7d\x7d"

/-- The settings that both texts hold.  A number with a point is rounded twice. -/
def constantRateConfig : Config Float32 Float :=
  { Config.base with
    valueOptimizer :=
      { Adam.Settings.standard with beta1 := (0.1 : Float).toFloat32, maxNorm := some 2 }
    valueSchedule := .constant 0.25 }

/-- The rate is left out. -/
def missingRate : Document :=
  .record [("value_lr_schedule", .record [("type", .text "constant")])]

def missingRateText : String :=
  "\x7b\"value_lr_schedule\":\x7b\"type\":\"constant\"\x7d\x7d"

theorem relaid_movedRate : Relaid (some agent) constantRate movedRate := by
  have hunknown : ∀ s ∈ some agent, ¬ s.Knows constantRate "note" := by
    rintro s ⟨⟩ (_ | ⟨⟨⟩, hname⟩)
    exact absurd hname (by decide)
  refine .trans (.add hunknown .null) ?_
  exact @Relaid.entry _ [_, _] [] _ _ _ (.reorder (.swap _ _ _))

theorem flawed_missingRate : agent.Flawed missingRate := by
  have htagged : Schedule.Plan.Tagged (.record [("type", .text "constant")]) "constant"
      (.record [("type", .text "constant")]) :=
    .record (by decide) List.mem_cons_self
  refine .inside .agent (.entry (by decide) List.mem_cons_self) rfl
    (.lacking (.schedule htagged rfl) List.mem_cons_self ?_)
  rintro item (⟨_, hmem⟩ | _)
  simp at hmem

theorem read_clippedTenth :
    Adam.Settings.ofDocument? clippedTenth = some constantRateConfig.valueOptimizer := by
  have hfields : fields? Adam.Settings.fieldNames clippedTenth =
      some [some (.number ⟨false, 1, 1, 0, false⟩), none, none, none,
        some (.number ⟨false, 2, 0, 0, true⟩)] := rfl
  have hdouble : (Numeral.mk false 1 1 0 false).float? = some 0.1 := by decide +kernel
  have hbeta : float32? (.number ⟨false, 1, 1, 0, false⟩) = some (0.1 : Float).toFloat32 := by
    show (Numeral.mk false 1 1 0 false).float?.map Float.toFloat32 = _
    rw [hdouble]
    rfl
  have hnorm : float32? (.number ⟨false, 2, 0, 0, true⟩) = some 2 := by decide +kernel
  rw [Adam.Settings.ofDocument?, hfields]
  simp [withDefault?, optional?, hbeta, hnorm, constantRateConfig]

theorem read_constantRate : Config.ofDocument? constantRate = some constantRateConfig := by
  have hplan : Schedule.Plan.ofDocument? (Document.deepest - 1)
      (.record [("type", .text "constant"), ("lr", .number ⟨false, 25, 2, 0, false⟩)]) =
        some (.constant 0.25) := by decide +kernel
  -- Everything but these two fields keeps its standard value.
  show ((Adam.Settings.ofDocument? clippedTenth).bind fun optimizer =>
    (Schedule.Plan.ofDocument? (Document.deepest - 1) _).bind fun plan =>
      some { Config.base with valueOptimizer := optimizer, valueSchedule := plan }) = _
  rw [read_clippedTenth, hplan]
  rfl

/-- The kind of a schedule may come last, and no field may be left out. -/
theorem settings_of_constantRateText :
    agent.Says constantRate constantRateConfig ∧
    agent.ofText? movedRateText = some constantRateConfig ∧
    agent.ofText? missingRateText = none := by
  have hparse : parse? constantRateText = some constantRate := by cbv
  have hmoved : parse? movedRateText = some movedRate := by cbv
  have hlacking : parse? missingRateText = some missingRate := by cbv
  have hread : agent.ofText? constantRateText = some constantRateConfig := by
    rw [ofText?, hparse]
    exact read_constantRate
  obtain ⟨hsaid, hlayout, _⟩ := settings_of_text agent hparse
  refine ⟨(hsaid _).mp hread, ?_, (settings_of_text agent hlacking).2.2 flawed_missingRate⟩
  rw [hlayout _ _ hmoved relaid_movedRate, hread]

end Schema

end PolicyGradient
