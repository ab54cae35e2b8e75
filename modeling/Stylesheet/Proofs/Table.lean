import Stylesheet.Table

/-!
# Bindings in tables

Binding names one after the other leaves each name at the place where it first came, with the
value that it came with last.
-/

namespace Stylesheet

variable {α : Type}

theorem lookup_cons_eq_ite (name query : String) (value : α) (rest : List (String × α)) :
    ((name, value) :: rest).lookup query
      = if query = name then some value else rest.lookup query := by
  rw [List.lookup_cons]
  by_cases hquery : query = name
  · simp [hquery]
  · simp [beq_eq_false_iff_ne.mpr hquery, hquery]

theorem lookup_putEntry (name query : String) (value : α) (entries : List (String × α)) :
    (putEntry name value entries).lookup query
      = if query = name then some value else entries.lookup query := by
  induction entries with
  | nil => exact lookup_cons_eq_ite name query value []
  | cons entry rest ih =>
      obtain ⟨other, previous⟩ := entry
      by_cases hother : other = name
      · subst hother
        simp only [putEntry, if_true, lookup_cons_eq_ite]
        by_cases hquery : query = other
        · simp [hquery]
        · simp [hquery]
      · simp only [putEntry, hother, if_false, lookup_cons_eq_ite, ih]
        by_cases hquery : query = other
        · simp [hquery, hother]
        · simp [hquery]

theorem not_mem_map_fst_iff_forall_ne {name : String} {bindings : List (String × α)} :
    name ∉ bindings.map Prod.fst ↔ ∀ binding ∈ bindings, (name != binding.1) = true := by
  rw [List.mem_map]
  constructor
  · intro hname binding hbinding
    have hne : name ≠ binding.1 := fun heq => hname ⟨binding, hbinding, heq.symm⟩
    simpa using hne
  · rintro hne ⟨binding, hbinding, rfl⟩
    simpa using hne binding hbinding

/-- A name that no binding has is not found from behind either. -/
theorem lookup_reverse_eq_none_iff {name : String} {bindings : List (String × α)} :
    bindings.reverse.lookup name = none ↔ name ∉ bindings.map Prod.fst := by
  rw [← List.mem_reverse, ← List.map_reverse, not_mem_map_fst_iff_forall_ne,
    List.lookup_eq_none_iff]

theorem eraseDups_append_cons_of_mem {name : String} {names : List String} (hname : name ∈ names)
    (rest : List String) : (names ++ name :: rest).eraseDups = (names ++ rest).eraseDups := by
  rw [List.eraseDups_append, List.eraseDups_append, List.cons_removeAll]
  simp [hname]

theorem eraseDups_eq_self_of_nodup {names : List String} (hnames : names.Nodup) :
    names.eraseDups = names := by
  induction names with
  | nil => rfl
  | cons name rest ih =>
      obtain ⟨hname, hrest⟩ := List.nodup_cons.mp hnames
      have hkeeps : rest.filter (fun other => !other == name) = rest := by
        apply List.filter_eq_self.mpr
        intro other hother
        have hne : other ≠ name := fun heq => hname (heq ▸ hother)
        simpa using hne
      rw [List.eraseDups_cons, hkeeps, ih hrest]

namespace Table

@[simp] theorem find?_empty (name : String) : (∅ : Table α).find? name = none := rfl

theorem find?_insert (table : Table α) (name query : String) (value : α) :
    (table.insert name value).find? query
      = if query = name then some value else table.find? query :=
  lookup_putEntry name query value table.entries

theorem names_insert (table : Table α) (name : String) (value : α) :
    (table.insert name value).names
      = if name ∈ table.names then table.names else table.names ++ [name] :=
  map_fst_putEntry name value table.entries

theorem insertAll_cons (table : Table α) (name : String) (value : α)
    (bindings : List (String × α)) :
    table.insertAll ((name, value) :: bindings) = (table.insert name value).insertAll bindings :=
  rfl

theorem insertAll_append (table : Table α) (first second : List (String × α)) :
    table.insertAll (first ++ second) = (table.insertAll first).insertAll second := by
  simp [insertAll]

/-- Each name stands where it first came. -/
theorem names_insertAll (table : Table α) (bindings : List (String × α)) :
    (table.insertAll bindings).names = (table.names ++ bindings.map Prod.fst).eraseDups := by
  induction bindings generalizing table with
  | nil =>
      have hnames := eraseDups_eq_self_of_nodup table.nodup
      rw [List.map_nil, List.append_nil]
      exact hnames.symm
  | cons binding rest ih =>
      obtain ⟨name, value⟩ := binding
      rw [insertAll_cons, ih, names_insert, List.map_cons]
      by_cases hname : name ∈ table.names
      · rw [if_pos hname, eraseDups_append_cons_of_mem hname]
      · rw [if_neg hname, List.append_assoc, List.singleton_append]

/-- Each name has the value that it came with last, or the old one if it did not come. -/
theorem find?_insertAll (table : Table α) (bindings : List (String × α)) (name : String) :
    (table.insertAll bindings).find? name
      = (bindings.reverse.lookup name).or (table.find? name) := by
  induction bindings generalizing table with
  | nil => rfl
  | cons binding rest ih =>
      obtain ⟨other, value⟩ := binding
      rw [insertAll_cons, ih, find?_insert, List.reverse_cons, List.lookup_append, Option.or_assoc,
        lookup_cons_eq_ite]
      congr 1
      by_cases hname : name = other
      · simp [hname]
      · simp [hname]

/-- Bindings that have no name in common can be made in either order. -/
theorem find?_insertAll_comm (table : Table α) {first second : List (String × α)}
    (hdisjoint : ∀ name ∈ first.map Prod.fst, name ∉ second.map Prod.fst) (name : String) :
    ((table.insertAll first).insertAll second).find? name
      = ((table.insertAll second).insertAll first).find? name := by
  simp only [find?_insertAll]
  by_cases hname : name ∈ first.map Prod.fst
  · rw [lookup_reverse_eq_none_iff.mpr (hdisjoint name hname), Option.none_or, Option.none_or]
  · rw [lookup_reverse_eq_none_iff.mpr hname, Option.none_or, Option.none_or]

theorem names_ofList (bindings : List (String × α)) :
    (ofList bindings).names = (bindings.map Prod.fst).eraseDups :=
  names_insertAll ∅ bindings

theorem find?_ofList (bindings : List (String × α)) (name : String) :
    (ofList bindings).find? name = bindings.reverse.lookup name := by
  have hall := find?_insertAll ∅ bindings name
  rwa [find?_empty, Option.or_none] at hall

theorem find?_ofList_eq_some_iff {bindings : List (String × α)} {name : String} {value : α} :
    (ofList bindings).find? name = some value ↔
      ∃ before after, bindings = before ++ (name, value) :: after ∧
        name ∉ after.map Prod.fst := by
  rw [find?_ofList, List.lookup_eq_some_iff]
  constructor
  · rintro ⟨later, earlier, hsplit, hlast⟩
    refine ⟨earlier.reverse, later.reverse, ?_, ?_⟩
    · rw [← List.reverse_reverse bindings, hsplit]
      simp
    · rw [List.map_reverse, List.mem_reverse]
      exact not_mem_map_fst_iff_forall_ne.mpr hlast
  · rintro ⟨before, after, rfl, hlast⟩
    refine ⟨after.reverse, before.reverse, by simp, ?_⟩
    rw [← List.mem_reverse, ← List.map_reverse] at hlast
    exact not_mem_map_fst_iff_forall_ne.mp hlast

/-- A name that is not bound later keeps what it is bound to. -/
theorem find?_ofList_append {first second : List (String × α)} {name : String}
    (hname : name ∉ second.map Prod.fst) :
    (ofList (first ++ second)).find? name = (ofList first).find? name := by
  have hnone := lookup_reverse_eq_none_iff.mpr hname
  rw [find?_ofList, find?_ofList, List.reverse_append, List.lookup_append, hnone, Option.none_or]

/-- A table finds the bindings that it holds, since it holds one for each name. -/
theorem mem_entries_iff {table : Table α} {name : String} {value : α} :
    (name, value) ∈ table.entries ↔ table.find? name = some value := by
  rw [find?, List.lookup_eq_some_iff]
  constructor
  · intro hmem
    obtain ⟨before, after, hsplit⟩ := List.append_of_mem hmem
    refine ⟨before, after, hsplit, not_mem_map_fst_iff_forall_ne.mp ?_⟩
    have hnodup := table.nodup
    rw [hsplit, List.map_append, List.map_cons, List.nodup_append] at hnodup
    obtain ⟨-, -, hdisjoint⟩ := hnodup
    exact fun hname => hdisjoint _ hname _ List.mem_cons_self rfl
  · rintro ⟨before, after, hsplit, -⟩
    rw [hsplit]
    simp

/-- A table agrees with itself when every value that it finds is the same as itself. -/
theorem agree_self_iff {same : α → α → Bool} {table : Table α} :
    table.agree same table = true ↔
      ∀ name value, table.find? name = some value → same value value = true := by
  rw [agree, beq_self_eq_true, Bool.true_and, List.all_eq_true]
  constructor
  · intro hall name value hfind
    have hentry := hall (name, value) (mem_entries_iff.mpr hfind)
    simpa only [hfind] using hentry
  · rintro hself ⟨name, value⟩ hmem
    have hfind := mem_entries_iff.mp hmem
    simpa only [hfind] using hself name value hfind

end Table

end Stylesheet
