import PlanarKalman.Matrix.Basic

/-!
# The entries of a stored matrix as a list

A matrix is checked through lists, of all its entries or of those on its diagonal. What such a
list holds is said here, once for all checks, and likewise that reshaping moves nothing.
-/

namespace PlanarKalman

namespace Mat

variable {α : Type} {m n : Nat}

theorem mem_entries_iff {A : Mat m n α} {a : α} : a ∈ A.entries ↔ ∃ i j, A i j = a := by
  simp only [entries, toLists, List.mem_flatten, List.mem_map, Vector.mem_toList_iff]
  constructor
  · rintro ⟨_, ⟨row, hrow, rfl⟩, ha⟩
    obtain ⟨i, hi, rfl⟩ := Vector.getElem_of_mem hrow
    obtain ⟨j, hj, rfl⟩ := Vector.getElem_of_mem (Vector.mem_toList_iff.mp ha)
    exact ⟨⟨i, hi⟩, ⟨j, hj⟩, rfl⟩
  · rintro ⟨i, j, rfl⟩
    exact ⟨_, ⟨A.rows[i], A.rows.getElem_mem _, rfl⟩,
      Vector.mem_toList_iff.mpr (Vector.getElem_mem _)⟩

theorem forall_mem_entries_iff {A : Mat m n α} {p : α → Prop} :
    (∀ a ∈ A.entries, p a) ↔ ∀ i j, p (A i j) := by
  simp only [mem_entries_iff]
  exact ⟨fun h i j => h _ ⟨i, j, rfl⟩, fun h a ⟨i, j, hij⟩ => hij ▸ h i j⟩

theorem isFinite_iff [Scalar α] {A : Mat m n α} :
    A.isFinite = true ↔ ∀ i j, Scalar.isFinite (A i j) = true := by
  rw [isFinite, List.all_eq_true, forall_mem_entries_iff]

theorem mem_diagonal_iff {A : Mat n n α} {a : α} : a ∈ A.diagonal ↔ ∃ i, A i i = a := by
  rw [diagonal, List.mem_ofFn]

/-- Reshaping does not rearrange. It succeeds when the shape is right already. -/
theorem reshape?_eq_some_iff {r c : Nat} {A : Mat m n α} {B : Mat r c α} :
    A.reshape? r c = some B ↔
      ∃ (hr : r = m) (hc : c = n), ∀ i j, B i j = A (i.cast hr) (j.cast hc) := by
  unfold reshape?
  split
  · rename_i hshape
    rw [Option.some.injEq]
    constructor
    · rintro rfl
      exact ⟨hshape.1, hshape.2, fun i j => ofFn_apply ..⟩
    · rintro ⟨hr, hc, hB⟩
      ext i j
      rw [ofFn_apply, hB]
  · rename_i hshape
    exact ⟨nofun, fun ⟨hr, hc, _⟩ => absurd ⟨hr, hc⟩ hshape⟩

theorem reshape?_self (A : Mat m n α) : A.reshape? m n = some A :=
  reshape?_eq_some_iff.mpr ⟨rfl, rfl, fun _ _ => rfl⟩

end Mat

end PlanarKalman
