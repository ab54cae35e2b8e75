import Mathlib.Data.List.Sort
import Stylesheet.Proofs.Lists
import Stylesheet.Proofs.Table

/-!
# Tables that agree

Two tables agree when they bind the same names to values that are the same, whatever the order in
which the names arrived.  Put in the order of the names, the bindings of such tables are the same
one by one, and only theirs are.
-/

namespace Stylesheet.Table

variable {α : Type} {same : α → α → Bool} {a b : Table α}

theorem mem_names_iff {table : Table α} {name : String} :
    name ∈ table.names ↔ ∃ value, table.find? name = some value := by
  rw [names, List.mem_map]
  constructor
  · rintro ⟨⟨_, value⟩, hmem, rfl⟩
    exact ⟨value, mem_entries_iff.mp hmem⟩
  · rintro ⟨value, hfind⟩
    exact ⟨(name, value), mem_entries_iff.mpr hfind, rfl⟩

theorem find?_eq_none_iff {table : Table α} {name : String} :
    table.find? name = none ↔ name ∉ table.names := by
  rw [mem_names_iff, ← Option.isSome_iff_exists, Bool.not_eq_true, Option.isSome_eq_false_iff,
    Option.isNone_iff_eq_none]

/-- Two tables bind the same names, to values that are the same. -/
def Alike (same : α → α → Bool) (a b : Table α) : Prop :=
  ∀ name, Option.Rel (fun x y => same x y = true) (a.find? name) (b.find? name)

theorem Alike.perm_names (halike : Alike same a b) : a.names.Perm b.names := by
  apply (List.perm_ext_iff_of_nodup a.nodup b.nodup).mpr
  intro name
  show name ∈ a.names ↔ name ∈ b.names
  have hname := halike name
  rw [mem_names_iff, mem_names_iff]
  generalize a.find? name = left at hname
  generalize b.find? name = right at hname
  cases hname <;> simp

theorem Alike.same_of_find? (halike : Alike same a b) {name : String} {x y : α}
    (hx : a.find? name = some x) (hy : b.find? name = some y) : same x y = true := by
  have hname := halike name
  rw [hx, hy] at hname
  cases hname with
  | some hsame => exact hsame

theorem size_eq_length_names (table : Table α) : table.size = table.names.length :=
  (List.length_map ..).symm

/-- Tables of one size, one of which binds no name that the other does not, bind the same names. -/
theorem perm_names_of_subset (hsize : a.size = b.size) (hnames : a.names ⊆ b.names) :
    a.names.Perm b.names := by
  rw [size_eq_length_names, size_eq_length_names] at hsize
  exact (List.subperm_of_subset a.nodup hnames).perm_of_length_le hsize.ge

/-- A check of all entries of one table against those of another of its size finds out whether they
are alike. -/
theorem agree_iff_alike : a.agree same b = true ↔ Alike same a b := by
  rw [agree, Bool.and_eq_true, beq_iff_eq, List.all_eq_true]
  constructor
  · rintro ⟨hsize, hall⟩ name
    have hcounterpart {other : String} {x : α} (hx : a.find? other = some x) :
        ∃ y, b.find? other = some y ∧ same x y = true := by
      have hentry := hall (other, x) (mem_entries_iff.mpr hx)
      cases hy : b.find? other with
      | none => simp [hy] at hentry
      | some y => exact ⟨y, rfl, by simpa [hy] using hentry⟩
    cases hx : a.find? name with
    | some x =>
        obtain ⟨y, hy, hsame⟩ := hcounterpart hx
        rw [hy]
        exact .some hsame
    | none =>
        have hnames : a.names.Perm b.names := by
          refine perm_names_of_subset hsize fun other hother => ?_
          obtain ⟨x, hx⟩ := mem_names_iff.mp hother
          obtain ⟨y, hy, -⟩ := hcounterpart hx
          exact mem_names_iff.mpr ⟨y, hy⟩
        have hnone : b.find? name = none := by
          rw [find?_eq_none_iff, ← hnames.mem_iff, ← find?_eq_none_iff]
          exact hx
        rw [hnone]
        exact .none
  · intro halike
    refine ⟨?_, ?_⟩
    · rw [size_eq_length_names, size_eq_length_names]
      exact halike.perm_names.length_eq
    · rintro ⟨name, x⟩ hmem
      have hx := mem_entries_iff.mp hmem
      have hname : name ∈ b.names := halike.perm_names.subset (mem_names_iff.mpr ⟨x, hx⟩)
      obtain ⟨y, hy⟩ := mem_names_iff.mp hname
      simpa only [hy] using halike.same_of_find? hx hy

/-! ## Bindings in the order of their names -/

theorem mem_sorted_iff {table : Table α} {name : String} {value : α} :
    (name, value) ∈ table.sorted ↔ table.find? name = some value := by
  rw [← mem_entries_iff]
  exact (List.mergeSort_perm _ _).mem_iff

theorem perm_map_fst_sorted (table : Table α) : (table.sorted.map Prod.fst).Perm table.names :=
  (List.mergeSort_perm _ _).map Prod.fst

theorem pairwise_map_fst_sorted (table : Table α) :
    (table.sorted.map Prod.fst).Pairwise (· ≤ ·) := by
  have hsorted : table.sorted.Pairwise fun x y => decide (x.1 ≤ y.1) = true :=
    List.pairwise_mergeSort (by simpa using fun _ _ _ _ _ _ => String.le_trans)
      (by simpa using fun x _ y _ => String.le_total x y) table.entries
  rw [List.pairwise_map]
  exact hsorted.imp of_decide_eq_true

/-- There is one order for the names, however they arrived. -/
theorem map_fst_sorted_eq (hnames : a.names.Perm b.names) :
    a.sorted.map Prod.fst = b.sorted.map Prod.fst := by
  refine List.Perm.eq_of_pairwise (fun x y _ _ => String.le_antisymm) (pairwise_map_fst_sorted a)
    (pairwise_map_fst_sorted b) ?_
  exact (perm_map_fst_sorted a).trans (hnames.trans (perm_map_fst_sorted b).symm)

/-- Two lists with the same names go together when the values of each name do. -/
theorem forall₂_of_map_fst_eq {S : α → α → Prop} : ∀ {as bs : List (String × α)},
    as.map Prod.fst = bs.map Prod.fst →
      (∀ name x y, (name, x) ∈ as → (name, y) ∈ bs → S x y) →
      List.Forall₂ (fun x y => x.1 = y.1 ∧ S x.2 y.2) as bs
  | [], [], _, _ => .nil
  | (name, x) :: as, (_, y) :: bs, hnames, hvalues => by
      obtain ⟨rfl, hrest⟩ := List.cons.inj hnames
      refine .cons ⟨rfl, hvalues name x y List.mem_cons_self List.mem_cons_self⟩ ?_
      exact forall₂_of_map_fst_eq hrest fun other x y hx hy =>
        hvalues other x y (List.mem_cons_of_mem _ hx) (List.mem_cons_of_mem _ hy)

theorem forall₂_sorted_iff_alike :
    List.Forall₂ (fun x y => x.1 = y.1 ∧ same x.2 y.2 = true) a.sorted b.sorted ↔
      Alike same a b := by
  constructor
  · intro hsorted name
    cases hx : a.find? name with
    | some x =>
        obtain ⟨⟨_, y⟩, hy, rfl, hsame⟩ := exists_mem_of_forall₂ hsorted (mem_sorted_iff.mpr hx)
        rw [mem_sorted_iff.mp hy]
        exact .some hsame
    | none =>
        cases hy : b.find? name with
        | none => exact .none
        | some y =>
            obtain ⟨⟨_, x⟩, hmem, rfl, -⟩ :=
              exists_mem_of_forall₂ hsorted.flip (mem_sorted_iff.mpr hy)
            cases hx.symm.trans (mem_sorted_iff.mp hmem)
  · intro halike
    refine forall₂_of_map_fst_eq (S := fun x y => same x y = true)
      (map_fst_sorted_eq halike.perm_names) ?_
    intro name x y hx hy
    exact halike.same_of_find? (mem_sorted_iff.mp hx) (mem_sorted_iff.mp hy)

/-- Comparing the sorted bindings of two tables one by one finds out whether they are alike. -/
theorem zip_sorted_iff_alike :
    (a.size = b.size ∧ (a.sorted.zip b.sorted).all (fun (x, y) => x.1 == y.1 && same x.2 y.2)
      = true) ↔ Alike same a b := by
  have hlength (table : Table α) : table.sorted.length = table.size :=
    (List.mergeSort_perm _ _).length_eq
  rw [← forall₂_sorted_iff_alike, List.forall₂_iff_zip, hlength, hlength, List.all_eq_true]
  simp

end Stylesheet.Table
