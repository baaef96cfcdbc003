/-
A table of variables, seen as a map: what a name is looked up as after it, or
another, has been set (`get?_insert`), and so after any number of settings, of
which the last one for a name counts (`get?_insertAll`). It is nothing more
than that, as two tables in which all names are looked up alike are the same
(`ext_get?`). Seen as a list it takes what is set in order at its end
(`pairs_insertAll`), so a table is the one made from its own pairs.
-/
import Toolrun.Settings.EnvTable
import Mathlib.Data.List.Induction
import Mathlib.Data.List.Sort

namespace Toolrun

-- ================================================================== search

/-- An item is the one that is found by its key, if no two have the same. -/
theorem find?_of_nodup {α κ : Type} [DecidableEq κ] {key : α → κ}
    {items : List α} (h : (items.map key).Nodup) {item : α}
    (hitem : item ∈ items) :
    (items.find? fun other => key other = key item) = some item := by
  induction items with
  | nil => cases hitem
  | cons first others ih =>
      obtain ⟨hnew, hothers⟩ := List.nodup_cons.1 h
      rcases List.mem_cons.1 hitem with rfl | hitem
      · exact List.find?_cons_of_pos (decide_eq_true rfl)
      · have hne : key first ≠ key item := fun hsame =>
          hnew (hsame ▸ List.mem_map_of_mem hitem)
        rw [List.find?_cons_of_neg (by simpa using hne)]
        exact ih hothers hitem

-- ============================================================ assignments

section Assignments

variable {α : Type} {name : String}

/-- What a name is assigned last, if it is assigned anything. -/
def lastAssigned? (name : String) (assignments : List (String × α)) :
    Option α :=
  (assignments.reverse.find? fun a => a.1 = name).map (·.2)

@[simp] theorem lastAssigned?_nil : lastAssigned? name ([] : List (String × α))
    = none :=
  rfl

theorem lastAssigned?_concat (assignments : List (String × α))
    (other : String) (value : α) :
    lastAssigned? name (assignments ++ [(other, value)])
      = if other = name then some value
        else lastAssigned? name assignments := by
  unfold lastAssigned?
  rw [List.reverse_concat]
  split
  next hsame => rw [List.find?_cons_of_pos (by simpa using hsame)]; rfl
  next hother => rw [List.find?_cons_of_neg (by simpa using hother)]

/-- Later assignments come before earlier ones. -/
theorem lastAssigned?_append (assignments others : List (String × α)) :
    lastAssigned? name (assignments ++ others)
      = (lastAssigned? name others <|> lastAssigned? name assignments) := by
  unfold lastAssigned?
  rw [List.reverse_append, List.find?_append]
  cases others.reverse.find? fun a => a.1 = name <;> rfl

theorem lastAssigned?_eq_none {assignments : List (String × α)} :
    lastAssigned? name assignments = none ↔ ∀ a ∈ assignments, a.1 ≠ name := by
  unfold lastAssigned?
  rw [Option.map_eq_none_iff, List.find?_eq_none]
  simp only [List.mem_reverse, decide_eq_true_eq]

end Assignments

namespace EnvTable

variable {name other value : String}

-- ================================================================== lookup

theorem find?_insertSorted (name value other : String)
    (items : List (String × String)) :
    ((insertSorted name value items).find? fun p => p.1 = other)
      = if name = other then some (name, value)
        else items.find? fun p => p.1 = other := by
  induction items with
  | nil =>
      rw [insertSorted, List.find?_singleton, List.find?_nil]
      simp only [decide_eq_true_eq]
  | cons first others ih =>
      rw [insertSorted]
      split
      next =>
        rw [List.find?_cons]
        split
        next hname => rw [if_pos (of_decide_eq_true hname)]
        next hname => rw [if_neg (of_decide_eq_false hname)]
      next =>
        split
        next hsame =>
          subst hsame
          rw [List.find?_cons, List.find?_cons]
          split
          next hname => rw [if_pos (of_decide_eq_true hname)]
          next hname => rw [if_neg (of_decide_eq_false hname), hname]
        next hother =>
          rw [List.find?_cons, List.find?_cons, ih]
          split
          next hfirst =>
            have hne : name ≠ other := by
              rw [← of_decide_eq_true hfirst]
              exact hother
            rw [if_neg hne]
          next => rfl

/-- A variable that was set has its value, and the others keep theirs. -/
theorem get?_insert (t : EnvTable) (name value other : String) :
    (t.insert name value).get? other
      = if name = other then some value else t.get? other := by
  unfold get? insert
  rw [find?_insertSorted]
  split <;> rfl

/-- The table after some variables were set. -/
def insertAll (t : EnvTable) (pairs : List (String × String)) : EnvTable :=
  pairs.foldl (fun t p => t.insert p.1 p.2) t

theorem insertAll_concat (t : EnvTable) (pairs : List (String × String))
    (pair : String × String) :
    t.insertAll (pairs ++ [pair])
      = (t.insertAll pairs).insert pair.1 pair.2 := by
  unfold insertAll
  rw [List.foldl_append]
  rfl

/-- A variable that was set has the value that it was set to last. -/
theorem get?_insertAll (t : EnvTable) (pairs : List (String × String))
    (name : String) :
    (t.insertAll pairs).get? name
      = (lastAssigned? name pairs <|> t.get? name) := by
  induction pairs using List.reverseRecOn with
  | nil => rfl
  | append_singleton pairs pair ih =>
      rw [insertAll_concat, get?_insert, lastAssigned?_concat, ih]
      split <;> rfl

-- ================================================================== pairs

/-- A sorted table has no name twice. -/
theorem nodup_names (t : EnvTable) : (t.pairs.map (·.1)).Nodup := by
  rw [List.nodup_iff_pairwise_ne, List.pairwise_map]
  exact t.sorted.imp String.ne_of_lt

theorem get?_eq_some {t : EnvTable} :
    t.get? name = some value ↔ (name, value) ∈ t.pairs := by
  unfold get?
  constructor
  · intro h
    obtain ⟨pair, hfind, rfl⟩ := Option.map_eq_some_iff.1 h
    obtain rfl : pair.1 = name := by simpa using List.find?_some hfind
    exact List.mem_of_find?_eq_some hfind
  · intro h
    rw [find?_of_nodup t.nodup_names h]
    rfl

/-- There is one table for what names are looked up as: its pairs can stand in
one order only. -/
theorem ext_get? {t u : EnvTable} (h : ∀ name, t.get? name = u.get? name) :
    t = u := by
  have hmem (pair : String × String) : pair ∈ t.pairs ↔ pair ∈ u.pairs := by
    rw [← get?_eq_some, ← get?_eq_some, h]
  have hpairs : t.pairs = u.pairs := by
    have hirrefl : Std.Irrefl fun p q : String × String => p.1 < q.1 :=
      ⟨fun p => String.lt_irrefl p.1⟩
    have hantisymm : Std.Antisymm fun p q : String × String => p.1 < q.1 :=
      ⟨fun p q hpq hqp =>
        absurd (String.lt_trans hpq hqp) (String.lt_irrefl p.1)⟩
    exact t.sorted.eq_of_mem_iff u.sorted hmem
  cases t
  cases u
  cases hpairs
  rfl

/-- Variables that are set once more are set already. -/
theorem insertAll_insertAll (t : EnvTable) (pairs : List (String × String)) :
    (t.insertAll pairs).insertAll pairs = t.insertAll pairs := by
  refine ext_get? fun other => ?_
  rw [get?_insertAll, get?_insertAll]
  cases lastAssigned? other pairs <;> rfl

-- =================================================================== order

/-- What comes behind everything is inserted at the end. -/
theorem insertSorted_of_last {items : List (String × String)}
    (h : ∀ p ∈ items, p.1 < name) :
    insertSorted name value items = items ++ [(name, value)] := by
  induction items with
  | nil => rfl
  | cons first others ih =>
      have hfirst : first.1 < name := h first List.mem_cons_self
      have hnotLess : ¬name < first.1 :=
        fun hless => String.lt_irrefl _ (String.lt_trans hfirst hless)
      have hne : name ≠ first.1 := by
        rintro rfl
        exact String.lt_irrefl _ hfirst
      rw [insertSorted, if_neg hnotLess, if_neg hne,
        ih fun p hp => h p (List.mem_cons_of_mem _ hp)]
      rfl

/-- What is set in order stands in the table as it was set. -/
theorem pairs_insertAll {pairs : List (String × String)} (h : Sorted pairs) :
    (empty.insertAll pairs).pairs = pairs := by
  induction pairs using List.reverseRecOn with
  | nil => rfl
  | append_singleton pairs pair ih =>
      obtain ⟨hfront, -, hbelow⟩ := List.pairwise_append.1 h
      rw [insertAll_concat]
      show insertSorted pair.1 pair.2 (empty.insertAll pairs).pairs = _
      rw [ih hfront]
      exact insertSorted_of_last fun p hp =>
        hbelow p hp pair List.mem_cons_self

/-- A table is the one made from its own pairs. -/
theorem insertAll_pairs (t : EnvTable) : empty.insertAll t.pairs = t := by
  cases t with
  | mk pairs sorted =>
      have hpairs := pairs_insertAll sorted
      revert hpairs
      generalize empty.insertAll pairs = made
      cases made with
      | mk pairs' sorted' =>
          rintro rfl
          rfl

end EnvTable

end Toolrun
