import Mathlib

/-!
# Records of fixed width

A record is written as the concatenation of its parts and read by offset and width.
`slices` cuts a list into consecutive parts of the widths that are asked for;
`eq_flatten_iff` says that a list is the concatenation of some parts exactly when it is
as long as they are and each part is found at its offset.
-/

namespace ProofboundRuntime.Layout

variable {α : Type}

/-- So many entries from the offset on. -/
def slice (list : List α) (offset width : Nat) : List α := (list.drop offset).take width

/-- Consecutive parts from the offset on. -/
def slices (list : List α) : Nat → List Nat → List (List α)
  | _, [] => []
  | offset, width :: widths => slice list offset width :: slices list (offset + width) widths

theorem length_slice {list : List α} {offset width : Nat} (h : offset + width ≤ list.length) :
    (slice list offset width).length = width := by
  rw [slice, List.length_take, List.length_drop]
  omega

theorem slice_append_drop (list : List α) (offset width : Nat) :
    slice list offset width ++ list.drop (offset + width) = list.drop offset := by
  rw [slice, ← List.drop_drop, List.take_append_drop]

theorem flatten_slices {list : List α} {offset : Nat} {widths : List Nat}
    (h : offset + widths.sum = list.length) :
    (slices list offset widths).flatten = list.drop offset := by
  induction widths generalizing offset with
  | nil =>
    have hoffset : offset = list.length := by simpa using h
    rw [hoffset, List.drop_length]
    rfl
  | cons width widths ih =>
    rw [List.sum_cons, ← Nat.add_assoc] at h
    rw [slices, List.flatten_cons, ih h, slice_append_drop]

theorem slices_append_flatten (front : List α) (parts : List (List α)) :
    slices (front ++ parts.flatten) front.length (parts.map List.length) = parts := by
  induction parts generalizing front with
  | nil => rfl
  | cons part parts ih =>
    -- the part that was read joins the front
    have hrest := ih (front ++ part)
    rw [List.append_assoc, List.length_append] at hrest
    rw [List.map_cons, slices, List.flatten_cons, hrest, slice, List.drop_left, List.take_left]

theorem eq_flatten_iff {list : List α} {parts : List (List α)} :
    list = parts.flatten ↔ list.length = (parts.map List.length).sum ∧
      slices list 0 (parts.map List.length) = parts := by
  constructor
  · intro h
    rw [h]
    exact ⟨List.length_flatten, slices_append_flatten [] parts⟩
  · intro ⟨hlength, hslices⟩
    have hflatten : (slices list 0 (parts.map List.length)).flatten = list.drop 0 :=
      flatten_slices (by omega)
    rw [hslices] at hflatten
    exact hflatten.symm

end ProofboundRuntime.Layout
