import Lineage.Parallel

/-!
# Tasks that finish in any order

Each task writes to the slot of its own index, so what the slots hold depends on which tasks have
finished and not on their order.

* **One step (`store_slots`).** A task that finishes fills its own slot.
* **A run (`fill_eq_slots`).** After any sequence of finished tasks, exactly their slots are filled.
* **All of it (`map_eq_map`).** Once every task has finished, the slots read off in order are the
  results of a run of one task after the other.
-/
namespace Lineage.Parallel
variable {task : α → β} {inputs : List α}

/-- The slots when the tasks of `finished` have finished and the others have not. -/
def slots (task : α → β) (inputs : List α) (finished : List Nat) : List (Option β) :=
  inputs.mapIdx fun i a => if i ∈ finished then some (task a) else none

theorem getElem?_slots (finished : List Nat) (i : Nat) :
    (slots task inputs finished)[i]? =
      inputs[i]?.map fun a => if i ∈ finished then some (task a) else none := by
  simp [slots]

theorem slots_nil (task : α → β) (inputs : List α) :
    slots task inputs [] = List.replicate inputs.length none := by
  apply List.ext_getElem?
  intro i
  rw [getElem?_slots, List.getElem?_replicate]
  by_cases hi : i < inputs.length <;> simp [hi]

/-- Slots know which tasks have finished, not when. -/
theorem slots_congr {finished finished' : List Nat} (h : ∀ i, i ∈ finished ↔ i ∈ finished') :
    slots task inputs finished = slots task inputs finished' := by
  simp [slots, h]

/-- A task that finishes fills its own slot and no other. -/
theorem store_slots (finished : List Nat) (i : Nat) :
    store task inputs (slots task inputs finished) i = slots task inputs (i :: finished) := by
  apply List.ext_getElem?
  intro j
  rw [getElem?_slots, store]
  cases hi : inputs[i]? with
  | none =>
    -- no task has this index, so none of the slots is the one of `i`
    simp only [getElem?_slots]
    cases hj : inputs[j]? with
    | none => rfl
    | some a =>
      have hne : j ≠ i := by
        rintro rfl
        rw [hi] at hj
        cases hj
      simp [hne]
  | some a =>
    by_cases hj : j = i
    · subst hj
      have hlt : j < (slots task inputs finished).length := by
        simpa [slots] using (List.getElem?_eq_some_iff.mp hi).1
      simp [List.getElem?_set_self hlt, hi]
    · rw [List.getElem?_set_ne (Ne.symm hj), getElem?_slots]
      simp [hj]

theorem foldl_store_slots (finished before : List Nat) :
    finished.foldl (store task inputs) (slots task inputs before) =
      slots task inputs (finished.reverse ++ before) := by
  induction finished generalizing before with
  | nil => rfl
  | cons i finished ih =>
    rw [List.foldl_cons, store_slots, ih, List.reverse_cons, List.append_assoc]
    rfl

theorem fill_eq_slots (finished : List Nat) :
    fill task inputs finished = slots task inputs finished := by
  unfold fill
  rw [← slots_nil task inputs, foldl_store_slots]
  apply slots_congr
  simp

theorem slots_of_all {finished : List Nat} (h : ∀ i, i < inputs.length → i ∈ finished) :
    slots task inputs finished = inputs.map fun a => some (task a) := by
  apply List.ext_getElem?
  intro i
  rw [getElem?_slots, List.getElem?_map]
  cases hi : inputs[i]? with
  | none => rfl
  | some a =>
    have hmem : i ∈ finished := h i (List.getElem?_eq_some_iff.mp hi).1
    simp [hmem]

/-- Tasks run side by side give what they give one after the other, in whatever order they
finish. -/
theorem map_eq_map {schedule : Schedule} (h : schedule.Complete) (task : α → β) (inputs : List α) :
    map schedule task inputs = inputs.map task := by
  have hall : ∀ i, i < inputs.length → i ∈ schedule inputs.length := fun i hi =>
    (h inputs.length).mem_iff.mpr (List.mem_range.mpr hi)
  unfold map
  rw [fill_eq_slots, slots_of_all hall]
  simp [List.filterMap_map]

theorem mapIf_eq_map {parallel : Bool} {schedule : Schedule}
    (h : parallel = true → schedule.Complete) (task : α → β) (inputs : List α) :
    mapIf parallel schedule task inputs = inputs.map task := by
  cases parallel with
  | false => rfl
  | true => exact map_eq_map (h rfl) task inputs

end Lineage.Parallel
