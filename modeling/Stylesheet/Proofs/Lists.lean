import Mathlib.Data.List.Forall2

/-!
# Lists that are related item by item

Reading a list of pairs or of entries gives a list with one item for each.  A part of one list goes
with a part of the other.
-/

namespace Stylesheet

variable {α β : Type} {R : α → β → Prop}

/-- Every item of one list has its counterpart in the other. -/
theorem exists_mem_of_forall₂ {as : List α} {bs : List β}
    (hall : List.Forall₂ R as bs) {a : α} (ha : a ∈ as) : ∃ b ∈ bs, R a b := by
  induction hall with
  | nil => cases ha
  | cons hfirst hrest ih =>
      rcases List.mem_cons.mp ha with rfl | ha
      · exact ⟨_, List.mem_cons_self, hfirst⟩
      · obtain ⟨b, hb, hab⟩ := ih ha
        exact ⟨b, List.mem_cons_of_mem _ hb, hab⟩

/-- What holds between any two items of one list gives what holds between their counterparts. -/
theorem pairwise_of_forall₂ {S : α → α → Prop} {T : β → β → Prop} {as : List α} {bs : List β}
    (hall : List.Forall₂ R as bs) (hpairwise : as.Pairwise S)
    (hgives : ∀ {a a' b b'}, R a b → R a' b' → S a a' → T b b') : bs.Pairwise T := by
  induction hall with
  | nil => exact .nil
  | cons hfirst hrest ih =>
      obtain ⟨hleft, hpairwise⟩ := List.pairwise_cons.mp hpairwise
      refine List.pairwise_cons.mpr ⟨fun b hb => ?_, ih hpairwise⟩
      obtain ⟨a, ha, hab⟩ := exists_mem_of_forall₂ hrest.flip hb
      exact hgives hfirst hab (hleft a ha)

theorem forall₂_append_left_iff {first second : List α} {whole : List β} :
    List.Forall₂ R (first ++ second) whole ↔
      ∃ left right, List.Forall₂ R first left ∧ List.Forall₂ R second right ∧
        whole = left ++ right := by
  constructor
  · intro hwhole
    refine ⟨whole.take first.length, whole.drop first.length, ?_, ?_,
      (List.take_append_drop _ whole).symm⟩
    · simpa using List.forall₂_take first.length hwhole
    · simpa using List.forall₂_drop first.length hwhole
  · rintro ⟨left, right, hleft, hright, rfl⟩
    exact List.rel_append hleft hright

theorem forall₂_append_right_iff {first second : List β} {whole : List α} :
    List.Forall₂ R whole (first ++ second) ↔
      ∃ left right, List.Forall₂ R left first ∧ List.Forall₂ R right second ∧
        whole = left ++ right := by
  have hflip {left : List α} {right : List β} :
      List.Forall₂ R left right ↔ List.Forall₂ (flip R) right left :=
    ⟨List.Forall₂.flip, List.Forall₂.flip⟩
  simp only [hflip]
  exact forall₂_append_left_iff

/-- A list that is read item by item is read as a list of the results. -/
theorem mapM_eq_some_iff_forall₂ {f : α → Option β} {as : List α} {bs : List β} :
    as.mapM f = some bs ↔ List.Forall₂ (fun a b => f a = some b) as bs := by
  induction as generalizing bs with
  | nil => simp [eq_comm]
  | cons a rest ih =>
      rw [List.mapM_cons, Option.bind_eq_bind, Option.bind_eq_some_iff,
        List.forall₂_cons_left_iff]
      simp only [Option.bind_eq_bind, Option.bind_eq_some_iff, Option.pure_def,
        Option.some.injEq, ih]
      constructor
      · rintro ⟨b, hb, bs, hbs, rfl⟩
        exact ⟨b, bs, hb, hbs, rfl⟩
      · rintro ⟨b, bs, hb, hbs, rfl⟩
        exact ⟨b, hb, bs, hbs, rfl⟩

/-- A list is not read when one of its items is not. -/
theorem mapM_eq_none_iff {f : α → Option β} {as : List α} :
    as.mapM f = none ↔ ∃ a ∈ as, f a = none := by
  induction as with
  | nil => simp
  | cons a rest ih =>
      rw [List.mapM_cons, List.exists_mem_cons_iff, ← ih]
      cases f a with
      | none => simp
      | some b => cases rest.mapM f <;> simp

end Stylesheet
