import Mathlib.Data.List.Nodup
import Mathlib.Data.List.Perm.Basic
import ScriptOutline.Json.Value

/-!
Lists of what stands under keys, such as the fields of an object. Where no key stands twice, each is
found by its key however they are ordered (`lookup_eq_of_perm`), and putting fields in order keeps
them all (`sortFields_perm`). Where a key stands more than once, the last of its fields stays
(`lookup_sortFields`).
-/

set_option autoImplicit false

namespace ScriptOutline

section
variable {α : Type}

theorem mem_of_lookup {key : String} {v : α} {fields : List (String × α)}
    (h : fields.lookup key = some v) : (key, v) ∈ fields := by
  obtain ⟨before, after, rfl, -⟩ := List.lookup_eq_some_iff.1 h
  simp

theorem lookup_eq_some_iff_mem {key : String} {v : α} {fields : List (String × α)}
    (h : (fields.map Prod.fst).Nodup) : fields.lookup key = some v ↔ (key, v) ∈ fields := by
  refine ⟨mem_of_lookup, fun hmem => ?_⟩
  obtain ⟨before, after, rfl⟩ := List.append_of_mem hmem
  refine List.lookup_eq_some_iff.2 ⟨before, after, rfl, fun f hf => bne_iff_ne.2 ?_⟩
  rintro rfl
  rw [List.map_append, List.map_cons, List.nodup_middle, List.nodup_cons] at h
  exact h.1 (List.mem_append_left _ (List.mem_map.2 ⟨f, hf, rfl⟩))

theorem lookup_eq_of_perm {left right : List (String × α)} (hperm : left.Perm right)
    (h : (left.map Prod.fst).Nodup) (key : String) : left.lookup key = right.lookup key := by
  have hright : (right.map Prod.fst).Nodup := (hperm.map Prod.fst).nodup_iff.1 h
  ext v
  rw [lookup_eq_some_iff_mem h, lookup_eq_some_iff_mem hright, hperm.mem_iff]

end

namespace Json

theorem insertField_perm {key : String} (v : Value) {fields : List (String × Value)}
    (h : key ∉ fields.map Prod.fst) : (insertField key v fields).Perm ((key, v) :: fields) := by
  induction fields with
  | nil => exact .refl _
  | cons f fields ih =>
    simp only [List.map_cons, List.mem_cons, not_or] at h
    rw [insertField, if_neg h.1]
    split
    · exact .refl _
    · exact ((ih h.2).cons f).trans (.swap (key, v) f fields)

theorem foldl_insertField_perm {fields sorted : List (String × Value)}
    (h : ((fields ++ sorted).map Prod.fst).Nodup) :
    (fields.foldl (fun sorted f => insertField f.1 f.2 sorted) sorted).Perm (fields ++ sorted) := by
  induction fields generalizing sorted with
  | nil => exact .refl _
  | cons f fields ih =>
    rw [List.cons_append, List.map_cons, List.nodup_cons] at h
    have hnew : f.1 ∉ sorted.map Prod.fst := fun hmem =>
      h.1 (List.map_append ▸ List.mem_append_right _ hmem)
    have hstep := insertField_perm f.2 hnew
    have hmiddle : (fields ++ insertField f.1 f.2 sorted).Perm (f :: (fields ++ sorted)) :=
      (hstep.append_left fields).trans List.perm_middle
    refine (ih ?_).trans hmiddle
    rw [(hmiddle.map Prod.fst).nodup_iff]
    exact List.nodup_cons.2 h

theorem sortFields_perm {fields : List (String × Value)} (h : (fields.map Prod.fst).Nodup) :
    (sortFields fields).Perm fields := by
  have hkeys : ((fields ++ []).map Prod.fst).Nodup := by simpa using h
  simpa [sortFields] using foldl_insertField_perm hkeys

theorem lookup_insertField (key : String) (v : Value) (fields : List (String × Value))
    (other : String) :
    (insertField key v fields).lookup other =
      if other = key then some v else fields.lookup other := by
  induction fields with
  | nil =>
    rw [insertField, List.lookup_cons, List.lookup_nil]
    split <;> simp_all
  | cons f fields ih =>
    obtain ⟨k, w⟩ := f
    rw [insertField]
    by_cases hother : other = key
    · subst hother
      rw [if_pos rfl] at ih ⊢
      split_ifs with hsame
      · rw [List.lookup_cons, beq_self_eq_true]
      · rw [List.lookup_cons, beq_self_eq_true]
      · rw [List.lookup_cons, beq_eq_false_iff_ne.2 hsame, ih]
    · rw [if_neg hother] at ih ⊢
      split_ifs with hsame
      · rw [List.lookup_cons, List.lookup_cons, ← hsame, beq_eq_false_iff_ne.2 hother]
      · rw [List.lookup_cons, beq_eq_false_iff_ne.2 hother]
      · rw [List.lookup_cons, List.lookup_cons, ih]

/-- Of the fields with one key the last is found among those in order. -/
theorem lookup_sortFields (fields : List (String × Value)) (key : String) :
    (sortFields fields).lookup key = fields.reverse.lookup key := by
  have hfold : ∀ sorted : List (String × Value),
      (fields.foldl (fun sorted f => insertField f.1 f.2 sorted) sorted).lookup key =
        (fields.reverse ++ sorted).lookup key := by
    induction fields with
    | nil => exact fun _ => rfl
    | cons f fields ih =>
      intro sorted
      rw [List.foldl_cons, ih, List.reverse_cons, List.append_assoc, List.singleton_append,
        List.lookup_append, List.lookup_append, lookup_insertField, List.lookup_cons]
      congr 1
      split_ifs with h
      · rw [h, beq_self_eq_true]
      · rw [beq_eq_false_iff_ne.2 h]
  simpa [sortFields] using hfold []

end Json

end ScriptOutline
