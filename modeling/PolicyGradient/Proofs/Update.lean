import Mathlib.Data.List.Nodup
import PolicyGradient.Proofs.Restore

/-!
One Adam update, parameter by parameter.

Where identities differ, the update of a parameter depends on its own record and gradient alone:
`updateLayers_eq` takes the records out of the traversal.  What an update does to each parameter
is `updateOne_spec`.
-/

namespace PolicyGradient.Adam

open Outcome

variable {α : Type}

/-- Each parameter of a layer with its gradient, if it has one. -/
def assignedRow : List (Param α) → List (Option (ParamBlock α)) →
    List (Param α × Option (ParamBlock α))
  | [], _ => []
  | param :: params, gradients =>
      (param, gradients.head?.join) :: assignedRow params gradients.tail

/-- Each parameter of each layer with its gradient, if it has one. -/
def assigned : List (List (Param α)) → Gradients α →
    List (List (Param α × Option (ParamBlock α)))
  | [], _ => []
  | params :: layers, gradients =>
      assignedRow params (gradients.head?.getD []) :: assigned layers gradients.tail

theorem map_assignedRow {β : Type} (f : Param α → β) (params : List (Param α))
    (gradients : List (Option (ParamBlock α))) :
    ((assignedRow params gradients).map fun x => f x.1) = params.map f := by
  induction params generalizing gradients with
  | nil => rfl
  | cons param params ih => simp [assignedRow, ih]

theorem map_assigned {β : Type} (f : Param α → β) (layers : List (List (Param α)))
    (gradients : Gradients α) :
    (assigned layers gradients).map (List.map fun x => f x.1) = layers.map (List.map f) := by
  induction layers generalizing gradients with
  | nil => rfl
  | cons params layers ih => simp only [assigned, List.map_cons, map_assignedRow, ih]

/-- The record of an updated parameter, if its moments have changed. -/
def newRecord? (updated : Param α × Option (Moments α)) : Option (Nat × Moments α) :=
  updated.2.map fun moments => (updated.1.id, moments)

/-- The records with the new moments of some updated parameters. -/
def store (records : Records α) (updated : List (Param α × Option (Moments α))) : Records α :=
  records.insertAll (updated.filterMap newRecord?)

theorem store_append (records : Records α) (first second : List (Param α × Option (Moments α))) :
    store records (first ++ second) = store (store records first) second := by
  simp [store, Records.insertAll, List.filterMap_append]

theorem store_cons (records : Records α) (head : Param α × Option (Moments α))
    (tail : List (Param α × Option (Moments α))) :
    store records (head :: tail) = store (store records [head]) tail :=
  store_append records [head] tail

theorem sublist_newRecords (updated : List (Param α × Option (Moments α))) :
    ((updated.filterMap newRecord?).map Prod.fst).Sublist (updated.map fun x => x.1.id) := by
  induction updated with
  | nil => exact .slnil
  | cons head tail ih =>
      obtain ⟨param, moments⟩ := head
      cases moments with
      | none => exact ih.cons param.id
      | some moments => exact ih.cons_cons param.id

theorem find?_store_of_not_mem {records : Records α}
    {updated : List (Param α × Option (Moments α))} {id : Nat}
    (h : id ∉ updated.map fun x => x.1.id) : (store records updated).find? id = records.find? id :=
  Records.find?_insertAll_of_not_mem fun hmem => h ((sublist_newRecords updated).subset hmem)

/-- What is on record for an updated parameter: its new moments, or the old ones. -/
theorem find?_store_of_mem {records : Records α} {updated : List (Param α × Option (Moments α))}
    (hnodup : (updated.map fun x => x.1.id).Nodup) {x : Param α × Option (Moments α)}
    (hx : x ∈ updated) :
    (store records updated).find? x.1.id = x.2.or (records.find? x.1.id) := by
  cases hmoments : x.2 with
  | some moments =>
      have hentry : (x.1.id, moments) ∈ updated.filterMap newRecord? :=
        List.mem_filterMap.mpr ⟨x, hx, by simp [newRecord?, hmoments]⟩
      exact Records.find?_insertAll_of_mem
        (hnodup.sublist (sublist_newRecords updated)) hentry
  | none =>
      apply Records.find?_insertAll_of_not_mem
      intro hmem
      simp only [List.mem_map, List.mem_filterMap] at hmem
      obtain ⟨_, ⟨y, hy, hentry⟩, hid⟩ := hmem
      simp only [newRecord?, Option.map_eq_some_iff] at hentry
      obtain ⟨moments, hsome, rfl⟩ := hentry
      have hsame : y = x := List.inj_on_of_nodup_map hnodup hy hx hid
      rw [hsame, hmoments] at hsome
      cases hsome

variable [Scalar α]

/-- The update of a parameter from its own moments: the parameter and the new moments, none
without a gradient. -/
def updateOne (settings : Settings α) (lr : α) (moments : Option (Moments α)) (param : Param α) :
    Option (ParamBlock α) → Outcome (Param α × Option (Moments α))
  | none => .ok (param, none)
  | some gradient => do
      let moments ← advance settings (← effective settings param gradient) moments
      return (← move settings lr moments param, some moments)

theorem id_of_move {settings : Settings α} {lr : α} {moments : Moments α} {param param' : Param α}
    (h : move settings lr moments param = .ok param') : param'.id = param.id := by
  simp only [move, bind_eq_ok] at h
  obtain ⟨_, _, _, _, hreplace⟩ := h
  exact (Param.of_replace hreplace).1

theorem id_of_updateOne {settings : Settings α} {lr : α} {moments : Option (Moments α)}
    {param : Param α} {gradient : Option (ParamBlock α)} {updated : Param α × Option (Moments α)}
    (h : updateOne settings lr moments param gradient = .ok updated) :
    updated.1.id = param.id := by
  cases gradient with
  | none =>
      cases h
      rfl
  | some gradient =>
      simp only [updateOne, bind_eq_ok] at h
      obtain ⟨_, _, moments', _, param', hmove, hupdated⟩ := h
      cases hupdated
      exact id_of_move hmove

theorem updateParam_eq (settings : Settings α) (lr : α) (records : Records α) (param : Param α)
    (gradient : Option (ParamBlock α)) :
    updateParam settings lr records param gradient = do
      let updated ← updateOne settings lr (records.find? param.id) param gradient
      return (updated.1, store records [updated]) := by
  cases gradient with
  | none => rfl
  | some gradient =>
      simp only [updateParam, updateOne, bind_assoc, pure_bind]
      refine bind_congr fun gradient => bind_congr fun moments => ?_
      cases hmove : move settings lr moments param with
      | error e => rfl
      | ok param' =>
          simp only [bind, Except.bind, pure, Except.pure, store, Records.insertAll, newRecord?,
            List.filterMap_cons, List.filterMap_nil, List.foldl_cons, List.foldl_nil,
            Option.map_some, id_of_move hmove]

/-- The updates of the parameters of a layer, each from its own record. -/
def updateRow (settings : Settings α) (lr : α) (records : Records α)
    (row : List (Param α × Option (ParamBlock α))) :
    Outcome (List (Param α × Option (Moments α))) :=
  row.mapM fun x => updateOne settings lr (records.find? x.1.id) x.1 x.2

theorem updateRow_cons (settings : Settings α) (lr : α) (records : Records α)
    (x : Param α × Option (ParamBlock α)) (row : List (Param α × Option (ParamBlock α))) :
    updateRow settings lr records (x :: row) = do
      let updated ← updateOne settings lr (records.find? x.1.id) x.1 x.2
      let others ← updateRow settings lr records row
      return updated :: others := by
  simp [updateRow]

theorem updateRow_congr {settings : Settings α} {lr : α} {records records' : Records α}
    {row : List (Param α × Option (ParamBlock α))}
    (h : ∀ x ∈ row, records.find? x.1.id = records'.find? x.1.id) :
    updateRow settings lr records row = updateRow settings lr records' row :=
  mapM_congr fun x hx => by rw [h x hx]

theorem ids_of_updateRow {settings : Settings α} {lr : α} {records : Records α}
    {row : List (Param α × Option (ParamBlock α))} {updated : List (Param α × Option (Moments α))}
    (h : updateRow settings lr records row = .ok updated) :
    (updated.map fun x => x.1.id) = row.map fun x => x.1.id :=
  map_eq_of_mapM h fun _ _ _ hone => id_of_updateOne hone

/-- Nothing of a layer's update passes from one parameter to the next. -/
theorem updateParams_eq {settings : Settings α} {lr : α} {params : List (Param α)}
    (hnodup : (params.map Param.id).Nodup) (records : Records α)
    (gradients : List (Option (ParamBlock α))) :
    updateParams settings lr records params gradients = do
      let updated ← updateRow settings lr records (assignedRow params gradients)
      return (updated.map Prod.fst, store records updated) := by
  induction params generalizing records gradients with
  | nil => rfl
  | cons param params ih =>
      simp only [List.map_cons, List.nodup_cons] at hnodup
      rw [updateParams, updateParam_eq, assignedRow, updateRow_cons]
      cases hone : updateOne settings lr (records.find? param.id) param gradients.head?.join with
      | error e => rfl
      | ok updated =>
          have hcongr : ∀ x ∈ assignedRow params gradients.tail,
              (store records [updated]).find? x.1.id = records.find? x.1.id := by
            intro x hx
            apply find?_store_of_not_mem
            rw [List.map_singleton, List.mem_singleton, id_of_updateOne hone]
            intro heq
            apply hnodup.1
            rw [← heq, ← map_assignedRow Param.id params gradients.tail]
            exact List.mem_map_of_mem hx
          simp only [bind, Except.bind, pure, Except.pure]
          have hrest := ih hnodup.2 (store records [updated]) gradients.tail
          rw [updateRow_congr hcongr] at hrest
          rw [hrest]
          cases updateRow settings lr records (assignedRow params gradients.tail) with
          | error e => rfl
          | ok others =>
              simp only [bind, Except.bind, pure, Except.pure, List.map_cons,
                store_cons records updated others]

/-- The updates of all layers, each parameter's from its own record. -/
def updateRows (settings : Settings α) (lr : α) (records : Records α)
    (rows : List (List (Param α × Option (ParamBlock α)))) :
    Outcome (List (List (Param α × Option (Moments α)))) :=
  rows.mapM (updateRow settings lr records)

theorem updateRows_cons (settings : Settings α) (lr : α) (records : Records α)
    (row : List (Param α × Option (ParamBlock α)))
    (rows : List (List (Param α × Option (ParamBlock α)))) :
    updateRows settings lr records (row :: rows) = do
      let updated ← updateRow settings lr records row
      let others ← updateRows settings lr records rows
      return updated :: others := by
  simp [updateRows]

/-- Nothing of a model's update passes from one parameter to the next. -/
theorem updateLayers_eq {settings : Settings α} {lr : α} {layers : List (List (Param α))}
    (hnodup : (layers.map (List.map Param.id)).flatten.Nodup) (records : Records α)
    (gradients : Gradients α) :
    updateLayers settings lr records layers gradients = do
      let updated ← updateRows settings lr records (assigned layers gradients)
      return (updated.map (List.map Prod.fst), store records updated.flatten) := by
  induction layers generalizing records gradients with
  | nil => rfl
  | cons params layers ih =>
      simp only [List.map_cons, List.flatten_cons, List.nodup_append] at hnodup
      obtain ⟨hparams, hlayers, hdisjoint⟩ := hnodup
      rw [updateLayers, updateParams_eq hparams, assigned, updateRows_cons]
      cases hrow : updateRow settings lr records
          (assignedRow params (gradients.head?.getD [])) with
      | error e => rfl
      | ok updated =>
          have hids : (updated.map fun x => x.1.id) = params.map Param.id := by
            rw [ids_of_updateRow hrow, map_assignedRow]
          have hcongr : ∀ row ∈ assigned layers gradients.tail,
              updateRow settings lr (store records updated) row =
                updateRow settings lr records row := by
            intro row hrow
            apply updateRow_congr
            intro x hx
            apply find?_store_of_not_mem
            rw [hids]
            intro hmem
            refine hdisjoint _ hmem x.1.id ?_ rfl
            rw [← map_assigned Param.id layers gradients.tail]
            exact List.mem_flatten.mpr ⟨_, List.mem_map_of_mem hrow, List.mem_map_of_mem hx⟩
          simp only [bind, Except.bind, pure, Except.pure]
          have hrest := ih hlayers (store records updated) gradients.tail
          rw [updateRows, mapM_congr hcongr] at hrest
          rw [hrest, updateRows]
          cases (assigned layers gradients.tail).mapM (updateRow settings lr records) with
          | error e => rfl
          | ok others =>
              simp only [bind, Except.bind, pure, Except.pure, List.map_cons,
                List.flatten_cons, store_append]

end PolicyGradient.Adam
