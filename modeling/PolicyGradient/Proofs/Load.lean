import PolicyGradient.Model.Basic
import PolicyGradient.Proofs.Range

/-!
Loading weights into a model.

Weights go in exactly when they have the model's layout and every block is filled, and then the
model's weights are the given ones (`exists_load_iff`, `load_spec`).  A model keeps its form and
the identities of its parameters.
-/

namespace PolicyGradient

open Outcome

variable {α : Type}

/-- All parameters of the layer are filled. -/
def LayerWeights.IsFilled (layer : LayerWeights α) : Prop :=
  ∀ block ∈ layer.params, block.IsFilled

namespace ModelWeights

/-- The parameter shapes of all layers. -/
def layout (weights : ModelWeights α) : List (List (List Nat)) :=
  weights.layers.map LayerWeights.layout

/-- All parameters of all layers are filled. -/
def IsFilled (weights : ModelWeights α) : Prop :=
  ∀ layer ∈ weights.layers, layer.IsFilled

end ModelWeights

namespace Param

/-- What a parameter keeps when it is trained or loaded, its identity apart: whether gradients
reach it, and its shape. -/
def form (param : Param α) : Bool × List Nat :=
  (param.tracked, param.block.shape)

theorem of_replace {param param' : Param α} {block : ParamBlock α}
    (h : param.replace block = .ok param') :
    param'.id = param.id ∧ param'.tracked = param.tracked ∧ param'.block = block := by
  unfold replace at h
  split at h
  · cases h
    exact ⟨rfl, rfl, rfl⟩
  · cases h

theorem exists_fill_iff {param : Param α} {values : Array α} :
    (∃ param', param.fill values = .ok param') ↔
      values.size = Size.volume param.block.shape := by
  unfold fill replace
  split
  case isTrue h => simp [h.1]
  case isFalse h => simpa [param.addressable] using h

theorem error_of_fill {param : Param α} {values : Array α} {e : Failure}
    (h : param.fill values = .error e) : e = .fault .incompatibleShapes := by
  unfold fill replace at h
  split at h
  · cases h
  · cases h
    rfl

end Param

namespace Model

/-- The identities of the parameters, layer by layer. -/
def identities (model : Model α) : List (List Nat) :=
  model.layers.map (List.map Param.id)

/-- No two parameters have the same identity. -/
def DistinctIds (model : Model α) : Prop :=
  model.identities.flatten.Nodup

/-- The forms of the parameters, layer by layer. -/
def form (model : Model α) : List (List (Bool × List Nat)) :=
  model.layers.map (List.map Param.form)

/-- The same architecture over parameters of the same forms. -/
def SameForm (model other : Model α) : Prop :=
  model.architecture = other.architecture ∧ model.form = other.form

theorem SameForm.symm {model other : Model α} (h : model.SameForm other) :
    other.SameForm model :=
  ⟨h.1.symm, h.2.symm⟩

theorem SameForm.trans {model other third : Model α} (h : model.SameForm other)
    (h' : other.SameForm third) : model.SameForm third :=
  ⟨h.1.trans h'.1, h.2.trans h'.2⟩

theorem layout_eq_map_form (model : Model α) :
    model.layout = model.form.map (List.map Prod.snd) := by
  simp [layout, weights, form, weightsOf, LayerWeights.layout, Param.form, Function.comp_def]

theorem SameForm.layout_eq {model other : Model α} (h : model.SameForm other) :
    model.layout = other.layout := by
  rw [layout_eq_map_form, layout_eq_map_form, h.2]

theorem length_layout (model : Model α) : model.layout.length = model.depth := by
  simp [layout, weights, depth]

theorem isFilled_weightsOf (params : List (Param α)) : (weightsOf params).IsFilled := by
  intro block hblock
  simp only [weightsOf, List.mem_map] at hblock
  obtain ⟨param, _, rfl⟩ := hblock
  exact param.filled

theorem fillLayer_cons (param : Param α) (params : List (Param α)) (block : ParamBlock α)
    (blocks : List (ParamBlock α)) :
    fillLayer (param :: params) ⟨block :: blocks⟩ = do
      let param ← param.fill block.values
      let params ← fillLayer params ⟨blocks⟩
      return param :: params := by
  simp [fillLayer]

theorem fillLayer_spec {params filled : List (Param α)} {layer : LayerWeights α}
    (hlayout : layer.layout = (weightsOf params).layout)
    (h : fillLayer params layer = .ok filled) :
    weightsOf filled = layer ∧ filled.map Param.id = params.map Param.id ∧
      filled.map Param.form = params.map Param.form := by
  obtain ⟨blocks⟩ := layer
  induction params generalizing blocks filled with
  | nil =>
      cases h
      simp only [LayerWeights.layout, weightsOf, List.map_nil, List.map_eq_nil_iff] at hlayout
      simp [weightsOf, hlayout]
  | cons param params ih =>
      cases blocks with
      | nil => simp [LayerWeights.layout, weightsOf] at hlayout
      | cons block blocks =>
          simp only [LayerWeights.layout, weightsOf, List.map_cons, List.cons.injEq] at hlayout
          rw [fillLayer_cons] at h
          simp only [bind_eq_ok] at h
          obtain ⟨param', hparam, params', hparams, hfilled⟩ := h
          cases hfilled
          obtain ⟨hid, htracked, hblock⟩ := Param.of_replace hparam
          obtain ⟨hweights, hids, hforms⟩ := ih blocks hlayout.2 hparams
          have hsame : param'.block = block := by
            rw [hblock, ← hlayout.1]
          refine ⟨?_, ?_, ?_⟩
          · simpa [weightsOf, hsame] using hweights
          · simp [hid, hids]
          · simp [Param.form, htracked, hsame, hlayout.1, hforms]

theorem exists_fillLayer_iff {params : List (Param α)} {layer : LayerWeights α}
    (hlayout : layer.layout = (weightsOf params).layout) :
    (∃ filled, fillLayer params layer = .ok filled) ↔ layer.IsFilled := by
  obtain ⟨blocks⟩ := layer
  induction params generalizing blocks with
  | nil =>
      simp only [LayerWeights.layout, weightsOf, List.map_nil, List.map_eq_nil_iff] at hlayout
      subst hlayout
      exact ⟨fun _ block hblock => absurd hblock List.not_mem_nil, fun _ => ⟨[], rfl⟩⟩
  | cons param params ih =>
      cases blocks with
      | nil => simp [LayerWeights.layout, weightsOf] at hlayout
      | cons block blocks =>
          simp only [LayerWeights.layout, weightsOf, List.map_cons, List.cons.injEq] at hlayout
          have hhead : (∃ param', param.fill block.values = .ok param') ↔ block.IsFilled := by
            rw [Param.exists_fill_iff, ← hlayout.1]
            rfl
          have htail := ih blocks hlayout.2
          rw [fillLayer_cons]
          simp only [bind_eq_ok]
          constructor
          · rintro ⟨_, param', hparam, params', hparams, _⟩
            intro b hb
            rcases List.mem_cons.mp hb with rfl | hb
            · exact hhead.mp ⟨param', hparam⟩
            · exact htail.mp ⟨params', hparams⟩ b hb
          · intro hfilled
            obtain ⟨param', hparam⟩ := hhead.mpr (hfilled block List.mem_cons_self)
            obtain ⟨params', hparams⟩ :=
              htail.mpr fun b hb => hfilled b (List.mem_cons_of_mem block hb)
            exact ⟨_, param', hparam, params', hparams, rfl⟩

/-- Fill layer after layer, each from its own weights. -/
def fillLayers (layers : List (List (Param α))) (weights : List (LayerWeights α)) :
    Outcome (List (List (Param α))) :=
  (layers.zip weights).mapM fun (params, layer) => fillLayer params layer

theorem fillLayers_cons (params : List (Param α)) (layers : List (List (Param α)))
    (layer : LayerWeights α) (weights : List (LayerWeights α)) :
    fillLayers (params :: layers) (layer :: weights) = do
      let params ← fillLayer params layer
      let layers ← fillLayers layers weights
      return params :: layers := by
  simp [fillLayers]

theorem fillLayers_spec {layers filled : List (List (Param α))} {weights : List (LayerWeights α)}
    (hlayout : weights.map LayerWeights.layout =
      (layers.map weightsOf).map LayerWeights.layout)
    (h : fillLayers layers weights = .ok filled) :
    filled.map weightsOf = weights ∧
      filled.map (List.map Param.id) = layers.map (List.map Param.id) ∧
      filled.map (List.map Param.form) = layers.map (List.map Param.form) := by
  induction layers generalizing weights filled with
  | nil =>
      cases h
      simp only [List.map_nil, List.map_eq_nil_iff] at hlayout
      simp [hlayout]
  | cons params layers ih =>
      cases weights with
      | nil => simp at hlayout
      | cons layer weights =>
          simp only [List.map_cons, List.cons.injEq] at hlayout
          rw [fillLayers_cons] at h
          simp only [bind_eq_ok] at h
          obtain ⟨params', hparams, layers', hlayers, hfilled⟩ := h
          cases hfilled
          obtain ⟨hweights, hids, hforms⟩ := fillLayer_spec hlayout.1 hparams
          obtain ⟨hweights', hids', hforms'⟩ := ih hlayout.2 hlayers
          simp [hweights, hids, hforms, hweights', hids', hforms']

theorem exists_fillLayers_iff {layers : List (List (Param α))} {weights : List (LayerWeights α)}
    (hlayout : weights.map LayerWeights.layout =
      (layers.map weightsOf).map LayerWeights.layout) :
    (∃ filled, fillLayers layers weights = .ok filled) ↔
      ∀ layer ∈ weights, layer.IsFilled := by
  induction layers generalizing weights with
  | nil =>
      simp only [List.map_nil, List.map_eq_nil_iff] at hlayout
      subst hlayout
      exact ⟨fun _ layer hlayer => absurd hlayer List.not_mem_nil, fun _ => ⟨[], rfl⟩⟩
  | cons params layers ih =>
      cases weights with
      | nil => simp at hlayout
      | cons layer weights =>
          simp only [List.map_cons, List.cons.injEq] at hlayout
          have hhead := exists_fillLayer_iff hlayout.1
          have htail := ih hlayout.2
          rw [fillLayers_cons]
          simp only [bind_eq_ok]
          constructor
          · rintro ⟨_, params', hparams, layers', hlayers, _⟩
            intro l hl
            rcases List.mem_cons.mp hl with rfl | hl
            · exact hhead.mp ⟨params', hparams⟩
            · exact htail.mp ⟨layers', hlayers⟩ l hl
          · intro hfilled
            obtain ⟨params', hparams⟩ := hhead.mpr (hfilled layer List.mem_cons_self)
            obtain ⟨layers', hlayers⟩ :=
              htail.mpr fun l hl => hfilled l (List.mem_cons_of_mem layer hl)
            exact ⟨_, params', hparams, layers', hlayers, rfl⟩

theorem load_of_layout_eq {model : Model α} {weights : ModelWeights α}
    (h : weights.layout = model.layout) :
    model.load weights = do
      return { model with layers := ← fillLayers model.layers weights.layers } := by
  have hlength : weights.length = model.depth := by
    rw [← length_layout, ← h]
    simp [ModelWeights.layout, ModelWeights.length]
  have hlayouts : Layers.checkLayouts 0 model.layout (weights.layers.map LayerWeights.layout) =
      .ok () :=
    (Layers.checkLayouts_eq_ok (congrArg List.length h.symm)).mpr h.symm
  unfold load
  rw [ensureShape, if_pos (by rw [hlength]), hlayouts]
  rfl

theorem layout_eq_of_checks {model : Model α} {weights : ModelWeights α} {u v : Unit}
    (hlength : ensureShape .layerCount [weights.length] [model.depth] = .ok u)
    (hlayouts : Layers.checkLayouts 0 model.layout (weights.layers.map LayerWeights.layout) =
      .ok v) : weights.layout = model.layout := by
  unfold ensureShape at hlength
  split at hlength
  case isTrue hcount =>
    have hlengths : model.layout.length = (weights.layers.map LayerWeights.layout).length := by
      rw [length_layout, List.length_map]
      exact (List.cons.inj hcount).1.symm
    exact ((Layers.checkLayouts_eq_ok hlengths).mp hlayouts).symm
  case isFalse => simp at hlength

theorem layout_eq_of_load {model loaded : Model α} {weights : ModelWeights α}
    (h : model.load weights = .ok loaded) : weights.layout = model.layout := by
  unfold load at h
  simp only [bind_eq_ok] at h
  obtain ⟨_, hlength, _, hlayouts, _⟩ := h
  exact layout_eq_of_checks hlength hlayouts

/-- Loading succeeds exactly for filled weights of the model's layout. -/
theorem exists_load_iff {model : Model α} {weights : ModelWeights α} :
    (∃ loaded, model.load weights = .ok loaded) ↔
      weights.layout = model.layout ∧ weights.IsFilled := by
  constructor
  · rintro ⟨loaded, h⟩
    have hlayout := layout_eq_of_load h
    rw [load_of_layout_eq hlayout, bind_eq_ok] at h
    obtain ⟨layers, hlayers, _⟩ := h
    exact ⟨hlayout, (exists_fillLayers_iff hlayout).mp ⟨layers, hlayers⟩⟩
  · rintro ⟨hlayout, hfilled⟩
    obtain ⟨layers, hlayers⟩ := (exists_fillLayers_iff hlayout).mpr hfilled
    exact ⟨_, by rw [load_of_layout_eq hlayout, hlayers]; rfl⟩

/-- Weights of the model's layout that do not go in are a broken precondition. -/
theorem error_of_load {model : Model α} {weights : ModelWeights α} {e : Failure}
    (hlayout : weights.layout = model.layout) (h : model.load weights = .error e) :
    e = .fault .incompatibleShapes := by
  have hfill : fillLayers model.layers weights.layers = .error e := by
    rw [load_of_layout_eq hlayout] at h
    cases hlayers : fillLayers model.layers weights.layers with
    | error e' =>
        rw [hlayers] at h
        cases h
        rfl
    | ok layers =>
        rw [hlayers] at h
        cases h
  obtain ⟨⟨params, layer⟩, _, hlayer⟩ := error_of_mapM hfill
  obtain ⟨⟨param, block⟩, _, hblock⟩ := error_of_mapM hlayer
  exact Param.error_of_fill hblock

/-- A loaded model has the given weights, and all else of the model. -/
theorem load_spec {model loaded : Model α} {weights : ModelWeights α}
    (h : model.load weights = .ok loaded) :
    loaded.weights = weights ∧ loaded.identities = model.identities ∧
      loaded.SameForm model := by
  have hlayout := layout_eq_of_load h
  rw [load_of_layout_eq hlayout, bind_eq_ok] at h
  obtain ⟨layers, hlayers, hloaded⟩ := h
  cases hloaded
  obtain ⟨hweights, hids, hforms⟩ := fillLayers_spec hlayout hlayers
  exact ⟨congrArg ModelWeights.mk hweights, hids, rfl, hforms⟩

theorem isFilled_weights (model : Model α) : model.weights.IsFilled := by
  intro layer hlayer
  simp only [weights, List.mem_map] at hlayer
  obtain ⟨params, _, rfl⟩ := hlayer
  exact isFilled_weightsOf params

/-- What is determined by equal entries is equal. -/
theorem map_eq_of_map_eq {β γ δ : Type} {f : β → γ} {g : β → δ} {xs ys : List β}
    (hg : ∀ x y, f x = f y → g x = g y) (h : xs.map f = ys.map f) : xs.map g = ys.map g := by
  rw [map_eq_iff_forall₂] at h ⊢
  exact h.imp fun x y => hg x y

/-- Models with the same identities and forms have the same parameters, values apart. -/
theorem map_id_form_eq {model other : Model α} (hids : other.identities = model.identities)
    (hform : other.form = model.form) :
    other.layers.map (List.map fun p => (p.id, p.form)) =
      model.layers.map (List.map fun p => (p.id, p.form)) := by
  have hzip : ∀ m : Model α, m.layers.map (List.map fun p => (p.id, p.form)) =
      List.zipWith List.zip m.identities m.form := by
    intro m
    rw [identities, form, List.zipWith_map_left, List.zipWith_map_right, List.zipWith_self]
    exact List.map_congr_left fun row _ => List.zip_map'.symm
  rw [hzip, hzip, hids, hform]

end Model

end PolicyGradient
