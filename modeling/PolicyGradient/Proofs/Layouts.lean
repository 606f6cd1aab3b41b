import PolicyGradient.Proofs.Overlay

/-!
Documents laid out in another way.

Entries may change places at any depth, and a record may get further entries that the settings
around it do not know.  `Relaid` closes these changes under nesting, where it follows which settings
a nested document holds.  Readers cannot tell such documents apart (`Relaid.alike`).
-/

namespace PolicyGradient

open Document

namespace Document

variable {levels : Nat} {document document' : Document}

/-- What further entries may hold: null, a Boolean, an integer of 64 bits, with or without a sign,
or another number in double range. -/
inductive Harmless : Document → Prop
  | null : Harmless .null
  | bool (value : Bool) : Harmless (.bool value)
  | integer {negative : Bool} {n : Nat} : n < Nat.pow 2 64 → (negative = true → n ≤ Nat.pow 2 63) →
      Harmless (.number ⟨negative, n, 0, 0, true⟩)
  | number {value : Numeral} : value.float?.isSome → Harmless (.number value)

theorem Harmless.isWhole {item : Document} (h : Harmless item) : item.isWhole levels = true := by
  cases h with
  | null => rfl
  | bool => rfl
  | @integer negative n hn hnegative =>
      -- A negative zero is no 64-bit integer, but it is held as a float.
      by_cases hzero : negative = true ∧ n = 0
      · obtain ⟨rfl, rfl⟩ := hzero
        have hfloat : (Numeral.float? ⟨true, 0, 0, 0, true⟩).isSome = true := by decide +kernel
        simp [Document.isWhole, hfloat]
      · have hword : Numeral.isWord ⟨negative, n, 0, 0, true⟩ = true := by
          simp only [Numeral.isWord, Bool.and_eq_true, Bool.or_eq_true, decide_eq_true_eq, true_and]
          refine ⟨hn, ?_⟩
          cases negative with
          | false => exact .inl rfl
          | true => exact .inr ⟨Nat.pos_of_ne_zero fun h => hzero ⟨rfl, h⟩, hnegative rfl⟩
        simp [Document.isWhole, hword]
  | number hvalue => simp [Document.isWhole, hvalue]

/-- Lists and records. -/
def IsContainer : Document → Prop
  | .list _ => True
  | .record _ => True
  | _ => False

/-- The same document, or lists or records in the place of others. -/
def LeafAlike (document document' : Document) : Prop :=
  document = document' ∨ document.IsContainer ∧ document'.IsContainer

/-- A reader of documents that are neither lists nor records. -/
def IsLeafReader {β : Type} (read : Document → Option β) : Prop :=
  (∀ items, read (.list items) = none) ∧ ∀ entries, read (.record entries) = none

theorem isLeafReader_nat? : IsLeafReader nat? := ⟨fun _ => rfl, fun _ => rfl⟩

theorem isLeafReader_text? : IsLeafReader text? := ⟨fun _ => rfl, fun _ => rfl⟩

theorem isLeafReader_float? : IsLeafReader float? := ⟨fun _ => rfl, fun _ => rfl⟩

theorem isLeafReader_float32? : IsLeafReader float32? := ⟨fun _ => rfl, fun _ => rfl⟩

theorem IsLeafReader.optional? {β : Type} {read : Document → Option β} (h : IsLeafReader read) :
    IsLeafReader (optional? read) := by
  constructor
  · intro items
    simp [Document.optional?, h.1]
  · intro entries
    simp [Document.optional?, h.2]

theorem LeafAlike.symm (h : LeafAlike document document') : LeafAlike document' document :=
  Or.imp Eq.symm And.symm h

theorem LeafAlike.trans {document'' : Document} (h : LeafAlike document document')
    (h' : LeafAlike document' document'') : LeafAlike document document'' := by
  obtain rfl | ⟨hleft, hmiddle⟩ := h
  · exact h'
  · obtain rfl | ⟨_, hright⟩ := h'
    · exact .inr ⟨hleft, hmiddle⟩
    · exact .inr ⟨hleft, hright⟩

theorem LeafAlike.read_eq {β : Type} {read : Document → Option β}
    (h : LeafAlike document document') (hread : IsLeafReader read) :
    read document = read document' := by
  have hnone : ∀ item, IsContainer item → read item = none := by
    intro item hitem
    cases item with
    | list items => exact hread.1 items
    | record entries => exact hread.2 entries
    | _ => exact hitem.elim
  obtain rfl | ⟨h, h'⟩ := h
  · rfl
  · rw [hnone _ h, hnone _ h']

theorem allWhole_eq (items : List Document) :
    allWhole levels items = items.all fun item => item.isWhole levels := by
  induction items with
  | nil => rfl
  | cons item items ih => simp [allWhole, ih]

theorem entriesWhole_eq (entries : List (String × Document)) :
    entriesWhole levels entries = entries.all fun entry => entry.2.isWhole levels := by
  induction entries with
  | nil => rfl
  | cons entry entries ih => simp [entriesWhole, ih]

theorem isWhole_list (items : List Document) :
    (list items).isWhole levels =
      (decide (0 < levels) && items.all fun item => item.isWhole (levels - 1)) := by
  rw [isWhole, allWhole_eq]

theorem isWhole_record (entries : List (String × Document)) :
    (record entries).isWhole levels =
      (decide (0 < levels) && entries.all fun entry => entry.2.isWhole (levels - 1)) := by
  rw [isWhole, entriesWhole_eq]

end Document

namespace Schema

/-- What a field of settings holds. -/
inductive Content
  /-- A natural number of 64 bits. -/
  | whole
  | single
  | double
  | text
  | settings (schema : Schema)
  /-- Null, or what is held otherwise. -/
  | optional (content : Content)

/-- What the fields hold. -/
def content? : Schema → String → Option Content
  | agent, "value_batch_size" => some .whole
  | agent, "value_train_steps_per_epoch" => some .whole
  | agent, "policy_batch_size" => some .whole
  | agent, "policy_train_steps_per_epoch" => some .whole
  | agent, "n_shared_layers" => some .whole
  | agent, "added_policy_slice_length" => some .whole
  | agent, "max_slice_length" => some (.optional .whole)
  | agent, "output_dir" => some (.optional .text)
  | agent, "value_optimizer" => some (.settings optimizer)
  | agent, "value_lr_schedule" => some (.settings (schedule (Document.deepest - 1)))
  | agent, "policy_optimizer" => some (.settings optimizer)
  | agent, "policy_lr_schedule" => some (.settings (schedule (Document.deepest - 1)))
  | optimizer, "beta_1" => some .single
  | optimizer, "beta_2" => some .single
  | optimizer, "epsilon" => some .single
  | optimizer, "weight_decay_rate" => some .single
  | optimizer, "max_grad_norm" => some (.optional .single)
  | schedule _, "lr" => some .double
  | schedule _, "start_lr" => some .double
  | schedule _, "end_lr" => some .double
  | schedule _, "constant" => some .double
  | schedule _, "total_steps" => some .whole
  | schedule _, "warmup_steps" => some .whole
  | clipping, "epsilon" => some .single
  | weighting, "beta" => some .single
  | weighting, "w_max" => some .single
  | _, _ => none

/-- The settings that a field holds. -/
def child? (schema : Schema) (name : String) : Option Schema :=
  match schema.content? name with
  | some (.settings child) => some child
  | _ => none

/-- The settings at a place of a list. -/
def childAt? (schema : Schema) (place : Nat) : Option Schema :=
  Config.fieldNames[place]?.bind schema.child?

/-- Only the settings of an agent hold others. -/
theorem child?_eq_none {schema : Schema} (h : schema ≠ agent) (name : String) :
    schema.child? name = none := by
  unfold child? content?
  split
  · rename_i child hcontent
    split at hcontent <;> first | exact absurd rfl h | cases hcontent
  · rfl

/-- The names of the fields that are read, with the part of the document that has them. -/
inductive Fields : Schema → Document → List String → Document → Prop
  | agent {document : Document} : Fields agent document Config.fieldNames document
  | optimizer {document : Document} : Fields optimizer document Adam.Settings.fieldNames document
  | schedule {levels : Nat} {document body : Document} {kind : String} {names : List String} :
      Schedule.Plan.Tagged document kind body → Schedule.Plan.fieldNames? kind = some names →
      Fields (schedule levels) document names body
  | clipping {document : Document} : Fields clipping document Clipping.fieldNames document
  | weighting {document : Document} : Fields weighting document Weighting.fieldNames document

/-- The keys that settings know: their fields and, for a schedule, the name of its kind. -/
inductive Knows : Schema → Document → String → Prop
  | kind {levels : Nat} {document : Document} : Knows (schedule levels) document "type"
  | field {schema : Schema} {document body : Document} {names : List String} {name : String} :
      schema.Fields document names body → name ∈ names → Knows schema document name

/-- The same settings in another layout: entries change places, unknown entries are added, and the
same within nested documents.  Where no settings are expected, no key is known. -/
inductive Relaid : Option Schema → Document → Document → Prop
  | refl {schema : Option Schema} (document : Document) : Relaid schema document document
  | trans {schema : Option Schema} {document document' document'' : Document} :
      Relaid schema document document' → Relaid schema document' document'' →
      Relaid schema document document''
  | reorder {schema : Option Schema} {entries entries' : List (String × Document)} :
      entries.Perm entries' → Relaid schema (.record entries) (.record entries')
  | add {schema : Option Schema} {entries : List (String × Document)} {key : String}
      {item : Document} :
      (∀ s ∈ schema, ¬ s.Knows (.record entries) key) → item.Harmless →
      Relaid schema (.record entries) (.record ((key, item) :: entries))
  | entry {schema : Option Schema} {before after : List (String × Document)} {key : String}
      {item item' : Document} :
      Relaid (schema.bind fun s => s.child? key) item item' →
      Relaid schema (.record (before ++ (key, item) :: after))
        (.record (before ++ (key, item') :: after))
  | place {schema : Option Schema} {before after : List Document} {item item' : Document} :
      Relaid (schema.bind fun s => s.childAt? before.length) item item' →
      Relaid schema (.list (before ++ item :: after)) (.list (before ++ item' :: after))

/-- Readers cannot tell the documents apart, neither those of the expected settings nor those of
numbers and texts. -/
structure Alike (schema : Option Schema) (document document' : Document) : Prop where
  leaf : document.LeafAlike document'
  whole (levels : Nat) : document.isWhole levels = document'.isWhole levels
  read : ∀ s ∈ schema, s.read? document = s.read? document'

namespace Alike

variable {schema : Option Schema} {document document' document'' : Document}

theorem refl (schema : Option Schema) (document : Document) : Alike schema document document :=
  ⟨.inl rfl, fun _ => rfl, fun _ _ => rfl⟩

theorem symm (h : Alike schema document document') : Alike schema document' document :=
  ⟨h.leaf.symm, fun levels => (h.whole levels).symm, fun s hs => (h.read s hs).symm⟩

theorem trans (h : Alike schema document document') (h' : Alike schema document' document'') :
    Alike schema document document'' :=
  ⟨h.leaf.trans h'.leaf, fun levels => (h.whole levels).trans (h'.whole levels),
    fun s hs => (h.read s hs).trans (h'.read s hs)⟩

/-- Where no settings are expected, less is asked. -/
theorem untyped (h : Alike schema document document') : Alike none document document' :=
  ⟨h.leaf, h.whole, nofun⟩

theorem child (h : Alike none document document') {s : Schema} (hs : s ≠ agent) {name : String} :
    Alike (s.child? name) document document' := by
  rwa [child?_eq_none hs]

/-- What a reader of numbers and texts finds is the same. -/
theorem reads (h : Alike schema document document') {β : Type} {read : Document → Option β}
    {Says : Document → β → Prop} (hleaf : IsLeafReader read)
    (hread : ∀ {item value}, read item = some value ↔ Says item value) {value : β} :
    Says document value ↔ Says document' value := by
  rw [← hread, ← hread, h.leaf.read_eq hleaf]

theorem orNull (h : Alike schema document document') {β : Type} {read : Document → Option β}
    {Says : Document → β → Prop} (hleaf : IsLeafReader read)
    (hread : ∀ {item value}, read item = some value ↔ Says item value) {value : Option β} :
    OrNull Says document value ↔ OrNull Says document' value :=
  h.reads hleaf.optional? (optional?_eq_some hread)

theorem float (h : Alike schema document document') {x : Float} :
    Reads float? document x ↔ Reads float? document' x :=
  h.reads isLeafReader_float? Iff.rfl

theorem float32 (h : Alike schema document document') {x : Float32} :
    Reads float32? document x ↔ Reads float32? document' x :=
  h.reads isLeafReader_float32? Iff.rfl

theorem nat (h : Alike schema document document') {n : Nat} :
    IsNat document n ↔ IsNat document' n :=
  h.reads isLeafReader_nat? nat?_eq_some

theorem text (h : Alike schema document document') {text : String} :
    IsText document text ↔ IsText document' text :=
  h.reads isLeafReader_text? text?_eq_some

theorem same {s : Schema} (h : Alike (some s) document document') {settings : s.Settings} :
    s.Says document settings ↔ s.Says document' settings := by
  rw [← read?_eq_some, ← read?_eq_some, h.read s rfl]

end Alike

/-- The named fields hold items that readers cannot tell apart. -/
abbrev SameSettings (schema : Schema) (names : List String) : Document → Document → Prop :=
  SameFields names fun name => Alike (schema.child? name)

variable {document document' : Document}

theorem SameSettings.optimizer
    (h : optimizer.SameSettings Adam.Settings.fieldNames document document')
    {settings : Adam.Settings Float32} (hlaid : Adam.Settings.LaidOver document settings) :
    Adam.Settings.LaidOver document' settings where
  readable := h.readable.mp hlaid.readable
  beta1 := h.sets (fun hitem => hitem.float32) hlaid.beta1
  beta2 := h.sets (fun hitem => hitem.float32) hlaid.beta2
  epsilon := h.sets (fun hitem => hitem.float32) hlaid.epsilon
  decay := h.sets (fun hitem => hitem.float32) hlaid.decay
  maxNorm := h.sets (fun hitem => hitem.orNull isLeafReader_float32? Iff.rfl) hlaid.maxNorm

theorem SameSettings.agent (h : agent.SameSettings Config.fieldNames document document')
    {config : Config Float32 Float} (hlaid : Config.LaidOver document config) :
    Config.LaidOver document' config where
  readable := h.readable.mp hlaid.readable
  valueBatchSize := h.sets (fun hitem => hitem.nat) hlaid.valueBatchSize
  valueSteps := h.sets (fun hitem => hitem.nat) hlaid.valueSteps
  policyBatchSize := h.sets (fun hitem => hitem.nat) hlaid.policyBatchSize
  policySteps := h.sets (fun hitem => hitem.nat) hlaid.policySteps
  sharedLayers := h.sets (fun hitem => hitem.nat) hlaid.sharedLayers
  lookAhead := h.sets (fun hitem => hitem.nat) hlaid.lookAhead
  sliceLength := h.sets (fun hitem => hitem.orNull isLeafReader_nat? nat?_eq_some) hlaid.sliceLength
  outputDir := h.sets (fun hitem => hitem.orNull isLeafReader_text? text?_eq_some) hlaid.outputDir
  valueOptimizer := h.sets (fun hitem => Alike.same hitem) hlaid.valueOptimizer
  valueSchedule := h.sets (fun hitem => Alike.same hitem) hlaid.valueSchedule
  policyOptimizer := h.sets (fun hitem => Alike.same hitem) hlaid.policyOptimizer
  policySchedule := h.sets (fun hitem => Alike.same hitem) hlaid.policySchedule

theorem SameSettings.clipping (h : clipping.SameSettings Clipping.fieldNames document document')
    {clipping : Clipping Float32} (hlaid : Clipping.LaidOver document clipping) :
    Clipping.LaidOver document' clipping where
  readable := h.readable.mp hlaid.readable
  epsilon := h.sets (fun hitem => hitem.float32) hlaid.epsilon

theorem SameSettings.weighting (h : weighting.SameSettings Weighting.fieldNames document document')
    {weighting : Weighting Float32} (hlaid : Weighting.LaidOver document weighting) :
    Weighting.LaidOver document' weighting where
  readable := h.readable.mp hlaid.readable
  beta := h.sets (fun hitem => hitem.float32) hlaid.beta
  cap := h.sets (fun hitem => hitem.float32) hlaid.cap

variable {levels : Nat} {names : List String} {kind : String}

theorem SameSettings.filled (h : (schedule levels).SameSettings names document document')
    {plan : Schedule.Plan Float} (hfilled : Schedule.Plan.Filled names document kind plan) :
    Schedule.Plan.Filled names document' kind plan := by
  have hfloat {name : String} {value : Float} :
      Holds names document name (Reads float?) value →
        Holds names document' name (Reads float?) value :=
    h.holds fun hitem => hitem.float
  have hnat {name : String} {n : Nat} :
      Holds names document name IsNat n → Holds names document' name IsNat n :=
    h.holds fun hitem => hitem.nat
  cases plan with
  | constant lr => exact ⟨hfilled.1, hfloat hfilled.2⟩
  | linearDecay start stop total =>
      obtain ⟨hkind, hstart, hstop, htotal⟩ := hfilled
      exact ⟨hkind, hfloat hstart, hfloat hstop, hnat htotal⟩
  | warmupConstant lr steps => exact ⟨hfilled.1, hfloat hfilled.2.1, hnat hfilled.2.2⟩
  | multifactor factor steps => exact ⟨hfilled.1, hfloat hfilled.2.1, hnat hfilled.2.2⟩

/-- Schedules are the same when documents name the same kind and hold the same fields for it. -/
theorem described_of_same (hwhole : document.isWhole levels = document'.isWhole levels)
    (hsame : ∀ {kind body names}, Schedule.Plan.Tagged document kind body →
      Schedule.Plan.fieldNames? kind = some names →
      ∃ body', Schedule.Plan.Tagged document' kind body' ∧
        (schedule levels).SameSettings names body body')
    {plan : Schedule.Plan Float} (h : Schedule.Plan.Described levels document plan) :
    Schedule.Plan.Described levels document' plan := by
  obtain ⟨kind, body, names, htagged, hnames, hreadable, hheld, hfilled⟩ := h
  obtain ⟨body', htagged', hfields⟩ := hsame htagged hnames
  exact ⟨kind, body', names, htagged', hnames, hfields.readable.mp hreadable, hwhole ▸ hheld,
    hfields.filled hfilled⟩

/-- Where the name of the kind is given alike, it is the same. -/
theorem tagged_of_same {entries entries' : List (String × Document)}
    (h : (schedule levels).SameSettings ["type"] (.record entries) (.record entries'))
    (htagged : Schedule.Plan.Tagged (.record entries) kind (.record entries)) :
    Schedule.Plan.Tagged (.record entries') kind (.record entries') := by
  obtain ⟨honce, hmem⟩ := htagged
  obtain ⟨item, hitem, halike⟩ := h.forward (.entry List.mem_cons_self hmem)
  have hkind : item = .text kind := halike.text.mp rfl
  cases hitem with
  | entry _ hmem' =>
      refine .record ?_ (hkind ▸ hmem')
      exact h.readable.mp (by simpa [Readable] using honce) "type" List.mem_cons_self

/-- All settings but a schedule are the same when their fields are. -/
theorem read?_of_same {schema : Schema} (hschema : ∀ levels, schema ≠ .schedule levels)
    (hsame : ∀ {names}, schema.Fields document names document →
      schema.SameSettings names document document') :
    schema.read? document = schema.read? document' := by
  have hsymm {names : List String} (hfields : schema.Fields document names document) :
      schema.SameSettings names document' document :=
    SameFields.symm (hsame hfields) Alike.symm
  apply Option.ext
  intro settings
  simp only [read?_eq_some]
  cases schema with
  | agent => exact ⟨(hsame .agent).agent, (hsymm .agent).agent⟩
  | optimizer => exact ⟨(hsame .optimizer).optimizer, (hsymm .optimizer).optimizer⟩
  | schedule levels => exact absurd rfl (hschema levels)
  | clipping => exact ⟨(hsame .clipping).clipping, (hsymm .clipping).clipping⟩
  | weighting => exact ⟨(hsame .weighting).weighting, (hsymm .weighting).weighting⟩

/-- A schedule in a record is the same when the name of its kind and the fields of that kind are. -/
theorem read?_schedule_record {entries entries' : List (String × Document)}
    (hwhole : (record entries).isWhole levels = (record entries').isWhole levels)
    (hkind : (schedule levels).SameSettings ["type"] (.record entries) (.record entries'))
    (hsame : ∀ {names}, (schedule levels).Fields (.record entries) names (.record entries) →
      (schedule levels).SameSettings names (.record entries) (.record entries')) :
    (schedule levels).read? (.record entries) = (schedule levels).read? (.record entries') := by
  apply Option.ext
  intro settings
  simp only [read?_eq_some]
  constructor
  · apply described_of_same hwhole
    rintro kind _ names ⟨honce, hmem⟩ hnames
    have htagged := Schedule.Plan.Tagged.record honce hmem
    exact ⟨_, tagged_of_same hkind htagged, hsame (.schedule htagged hnames)⟩
  · apply described_of_same hwhole.symm
    rintro kind _ names ⟨honce, hmem⟩ hnames
    have htagged := tagged_of_same (SameFields.symm hkind Alike.symm) (.record honce hmem)
    exact ⟨_, htagged, SameFields.symm (hsame (.schedule htagged hnames)) Alike.symm⟩

/-- Records that agree on the keys that settings know are read as the same settings. -/
theorem read?_record {schema : Schema} {entries entries' : List (String × Document)}
    (hwhole : ∀ levels, (record entries).isWhole levels = (record entries').isWhole levels)
    (hsame : ∀ names, (∀ name ∈ names, schema.Knows (.record entries) name) →
      schema.SameSettings names (.record entries) (.record entries')) :
    schema.read? (.record entries) = schema.read? (.record entries') := by
  have hknown {names : List String}
      (hfields : schema.Fields (.record entries) names (.record entries)) :
      schema.SameSettings names (.record entries) (.record entries') :=
    hsame names fun _ => .field hfields
  cases schema with
  | schedule levels =>
      apply read?_schedule_record (hwhole levels) _ hknown
      exact hsame ["type"] fun name hname => List.mem_singleton.mp hname ▸ .kind
  | _ => exact read?_of_same nofun hknown

/-- A schedule given by position is the same when one place holds an item alike. -/
theorem described_of_place {before after : List Document} {item item' : Document}
    (h : Alike none item item')
    (hwhole : (list (before ++ item :: after)).isWhole levels =
      (list (before ++ item' :: after)).isWhole levels) {plan : Schedule.Plan Float}
    (hplan : Schedule.Plan.Described levels (.list (before ++ item :: after)) plan) :
    Schedule.Plan.Described levels (.list (before ++ item' :: after)) plan := by
  apply described_of_same hwhole _ hplan
  intro kind body names htagged hnames
  -- The first place names the kind, the others are fields.
  cases before with
  | nil =>
      cases htagged
      obtain rfl : item' = .text kind := h.text.mp rfl
      exact ⟨_, .list, .refl fun _ => .refl _⟩
  | cons tag before =>
      cases htagged
      exact ⟨_, .list, .of_place (fun _ => .refl _) fun _ _ => h.child (by simp)⟩

/-- Lists that differ in one place are read as the same settings when readers cannot tell the items
there apart. -/
theorem read?_place {schema : Schema} {before after : List Document} {item item' : Document}
    (hwhole : ∀ levels, (list (before ++ item :: after)).isWhole levels =
      (list (before ++ item' :: after)).isWhole levels)
    (h : Alike (schema.childAt? before.length) item item') :
    schema.read? (.list (before ++ item :: after)) =
      schema.read? (.list (before ++ item' :: after)) := by
  cases schema with
  | agent =>
      apply read?_of_same
      · exact nofun
      intro names hfields
      cases hfields
      exact .of_place (fun _ => .refl _) fun name hname => by simpa [childAt?, hname] using h
  | schedule levels =>
      apply Option.ext
      intro settings
      simp only [read?_eq_some]
      exact ⟨described_of_place h.untyped (hwhole levels),
        described_of_place h.untyped.symm (hwhole levels).symm⟩
  | _ =>
      exact read?_of_same nofun fun _ =>
        .of_place (fun _ => .refl _) fun _ _ => h.untyped.child (by simp)

/-- Documents that differ in their layout alone are read as the same settings. -/
theorem Relaid.alike {schema : Option Schema} (h : Relaid schema document document') :
    Alike schema document document' := by
  -- `Alike` asks for more than equal settings, so that it carries from nested documents outwards.
  induction h with
  | refl document => exact .refl _ document
  | trans _ _ ih ih' => exact ih.trans ih'
  | @reorder schema entries entries' hperm =>
      have hwhole (levels : Nat) :
          (record entries).isWhole levels = (record entries').isWhole levels := by
        simp only [isWhole_record, hperm.all_eq]
      exact ⟨.inr ⟨trivial, trivial⟩, hwhole, fun s _ => read?_record hwhole fun _ _ =>
        .of_perm (fun _ => .refl _) hperm⟩
  | @add schema entries key item hunknown hitem =>
      have hwhole (levels : Nat) :
          (record entries).isWhole levels = (record ((key, item) :: entries)).isWhole levels := by
        simp [isWhole_record, hitem.isWhole]
      refine ⟨.inr ⟨trivial, trivial⟩, hwhole, fun s hs => read?_record hwhole ?_⟩
      intro names hnames
      exact .of_unknown (fun _ => .refl _) fun hkey => hunknown s hs (hnames key hkey)
  | @entry schema before after key item item' _ ih =>
      have hwhole (levels : Nat) : (record (before ++ (key, item) :: after)).isWhole levels =
          (record (before ++ (key, item') :: after)).isWhole levels := by
        simp [isWhole_record, ih.whole]
      refine ⟨.inr ⟨trivial, trivial⟩, hwhole, fun s hs => read?_record hwhole ?_⟩
      intro names _
      obtain rfl : schema = some s := hs
      exact .of_entry (fun _ => .refl _) ih
  | @place schema before after item item' _ ih =>
      have hwhole (levels : Nat) : (list (before ++ item :: after)).isWhole levels =
          (list (before ++ item' :: after)).isWhole levels := by
        simp [isWhole_list, ih.whole]
      refine ⟨.inr ⟨trivial, trivial⟩, hwhole, fun s hs => read?_place hwhole ?_⟩
      obtain rfl : schema = some s := hs
      exact ih

end Schema

end PolicyGradient
