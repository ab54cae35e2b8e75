/-!
# Tables

A table binds names to values and remembers in which order the names first came.  Binding a name
anew changes its value and leaves its place.
-/

namespace Stylesheet

variable {α : Type}

/-- Bind a name in a list of bindings: in place if it is bound already, otherwise at the end. -/
def putEntry (name : String) (value : α) : List (String × α) → List (String × α)
  | [] => [(name, value)]
  | entry :: rest =>
      if entry.1 = name then (name, value) :: rest else entry :: putEntry name value rest

theorem map_fst_putEntry (name : String) (value : α) (entries : List (String × α)) :
    (putEntry name value entries).map Prod.fst =
      if name ∈ entries.map Prod.fst then entries.map Prod.fst
      else entries.map Prod.fst ++ [name] := by
  induction entries with
  | nil => simp [putEntry]
  | cons entry rest ih =>
      by_cases hname : entry.1 = name
      · simp [putEntry, hname]
      · have hname' : ¬ name = entry.1 := fun h => hname h.symm
        simp only [putEntry, hname, if_false, List.map_cons, ih, List.mem_cons, hname', false_or]
        split <;> simp

/-- Names with their values, in order of first arrival. -/
structure Table (α : Type) where
  entries : List (String × α)
  /-- No name is bound twice. -/
  nodup : (entries.map Prod.fst).Nodup

namespace Table

def empty : Table α :=
  ⟨[], List.nodup_nil⟩

instance : EmptyCollection (Table α) := ⟨empty⟩

def insert (table : Table α) (name : String) (value : α) : Table α where
  entries := putEntry name value table.entries
  nodup := by
    rw [map_fst_putEntry]
    split
    · exact table.nodup
    · next hname =>
        rw [List.nodup_append]
        refine ⟨table.nodup, by simp, ?_⟩
        intro a ha b hb hab
        simp only [List.mem_singleton] at hb
        subst hab hb
        exact hname ha

/-- Bind several names, one after the other. -/
def insertAll (table : Table α) (bindings : List (String × α)) : Table α :=
  bindings.foldl (fun table binding => table.insert binding.1 binding.2) table

/-- Collect bindings; of several for one name the last counts, at the place of the first. -/
def ofList (bindings : List (String × α)) : Table α :=
  empty.insertAll bindings

def find? (table : Table α) (name : String) : Option α :=
  table.entries.lookup name

def names (table : Table α) : List String :=
  table.entries.map Prod.fst

def size (table : Table α) : Nat :=
  table.entries.length

/-- The bindings in the order of their names, by code points. -/
def sorted (table : Table α) : List (String × α) :=
  table.entries.mergeSort fun a b => decide (a.1 ≤ b.1)

/-- Whether two tables bind the same names to values that `same` accepts, in whatever order. -/
def agree (same : α → α → Bool) (a b : Table α) : Bool :=
  a.size == b.size && a.entries.all fun entry =>
    match b.find? entry.1 with
    | some value => same entry.2 value
    | none => false

end Table

end Stylesheet
