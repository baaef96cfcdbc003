/-
The environment variables that a tool gets on top of the inherited ones: a
finite map from names to values, kept in the order of the names' bytes, which
is the order in which it is shown. Setting a name that is there already takes
the place of its value.
-/

namespace Toolrun

namespace EnvTable

/-- Inserts a pair into a list ordered by name, in the place of the pair of
that name if there is one. -/
def insertSorted (name value : String) :
    List (String × String) → List (String × String)
  | [] => [(name, value)]
  | first :: others =>
    if name < first.1 then (name, value) :: first :: others
    else if name = first.1 then (name, value) :: others
    else first :: insertSorted name value others

/-- What is in the list afterwards is the new pair or was there before. -/
theorem mem_insertSorted {name value : String} {x : String × String}
    {items : List (String × String)}
    (h : x ∈ insertSorted name value items) :
    x = (name, value) ∨ x ∈ items := by
  induction items with
  | nil => simpa [insertSorted] using h
  | cons first others ih =>
    rw [insertSorted] at h
    split at h
    · simpa using h
    · split at h
      · exact (List.mem_cons.1 h).imp_right (List.mem_cons_of_mem _)
      · rcases List.mem_cons.1 h with h | h
        · exact .inr (h ▸ List.mem_cons_self)
        · exact (ih h).imp_right (List.mem_cons_of_mem _)

/-- Whether pairs stand in the strict order of their names. -/
def Sorted (items : List (String × String)) : Prop :=
  items.Pairwise (·.1 < ·.1)

/-- Insertion keeps the order. -/
theorem Sorted.insertSorted {items : List (String × String)}
    (h : Sorted items) (name value : String) :
    Sorted (insertSorted name value items) := by
  induction items with
  | nil => exact List.pairwise_singleton _ _
  | cons first others ih =>
    obtain ⟨above, rest⟩ := List.pairwise_cons.1 h
    rw [EnvTable.insertSorted]
    split
    next less =>
      refine List.pairwise_cons.2 ⟨fun y hy => ?_, h⟩
      rcases List.mem_cons.1 hy with rfl | hy
      · exact less
      · exact String.lt_trans less (above y hy)
    next notLess =>
      split
      next same =>
        exact List.pairwise_cons.2 ⟨fun y hy => same ▸ above y hy, rest⟩
      next other =>
        refine List.pairwise_cons.2 ⟨fun y hy => ?_, ih rest⟩
        rcases mem_insertSorted hy with rfl | hy
        · exact Std.lt_of_le_of_ne (String.not_lt.1 notLess) (Ne.symm other)
        · exact above y hy

end EnvTable

/-- A map from names to values, ordered by name. -/
structure EnvTable where
  pairs : List (String × String) := []
  sorted : EnvTable.Sorted pairs := by exact List.Pairwise.nil
  deriving DecidableEq

namespace EnvTable

/-- No variables. -/
def empty : EnvTable := {}

/-- A table to begin with is the empty one. -/
instance : Inhabited EnvTable := ⟨empty⟩

/-- Sets a variable. -/
def insert (t : EnvTable) (name value : String) : EnvTable where
  pairs := insertSorted name value t.pairs
  sorted := t.sorted.insertSorted name value

/-- The value of a variable. -/
def get? (t : EnvTable) (name : String) : Option String :=
  (t.pairs.find? fun p => p.1 = name).map (·.2)

/-- The table of some pairs, of which a later one wins. -/
def ofList (pairs : List (String × String)) : EnvTable :=
  pairs.foldl (fun t p => t.insert p.1 p.2) empty

end EnvTable

end Toolrun
