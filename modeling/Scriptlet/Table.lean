/-
Finite maps as lists of entries in ascending key order.  Inserting keeps the
order and replaces an entry with the same key, so a table lists every key
once and two tables with the same entries are the same list.
-/

namespace Scriptlet

/-- A finite map, listed by ascending key. -/
abbrev Table (κ α : Type) := List (κ × α)

namespace Table

variable {κ α : Type}

def keys (table : Table κ α) : List κ := table.map Prod.fst

variable [Ord κ]

/-- The value stored under `key`. -/
def find? (key : κ) : Table κ α → Option α
  | [] => none
  | (k, v) :: rest => if compare key k = .eq then some v else find? key rest

/-- Stores `value` under `key`, replacing what was there. -/
def insert (key : κ) (value : α) : Table κ α → Table κ α
  | [] => [(key, value)]
  | (k, v) :: rest =>
      match compare key k with
      | .lt => (key, value) :: (k, v) :: rest
      | .eq => (key, value) :: rest
      | .gt => (k, v) :: insert key value rest

/-- Every key is below all the keys after it. -/
def Ascending (table : Table κ α) : Prop :=
  table.Pairwise fun left right => compare left.1 right.1 = .lt

theorem find?_insert_self [Std.LawfulEqOrd κ] (key : κ) (value : α)
    (table : Table κ α) : find? key (insert key value table) = some value := by
  fun_induction insert key value table with
  | case1 => simp [find?]
  | case2 => simp [find?]
  | case3 => simp [find?]
  | case4 k v rest hgt ih => simp [find?, hgt, ih]

theorem find?_insert_of_ne [Std.LawfulEqOrd κ] {key other : κ} (value : α)
    (table : Table κ α) (hne : other ≠ key) :
    find? other (insert key value table) = find? other table := by
  have hother : compare other key ≠ .eq :=
    fun h => hne (Std.LawfulEqOrd.eq_of_compare h)
  fun_induction insert key value table with
  | case1 => simp [find?, hother]
  | case2 => simp [find?, hother]
  | case3 k v rest heq =>
      have : key = k := Std.LawfulEqOrd.eq_of_compare heq
      subst this
      simp [find?, hother]
  | case4 k v rest hgt ih => simp [find?, ih]

theorem mem_insert [Std.LawfulEqOrd κ] {key : κ} {value : α} {table : Table κ α}
    {entry : κ × α} (h : entry ∈ insert key value table) :
    entry = (key, value) ∨ entry ∈ table := by
  fun_induction insert key value table with
  | case1 => simpa using h
  | case2 => simpa using h
  | case3 k v rest heq =>
      simp only [List.mem_cons] at h
      rcases h with rfl | h
      · exact Or.inl rfl
      · exact Or.inr (List.mem_cons_of_mem _ h)
  | case4 k v rest hgt ih =>
      simp only [List.mem_cons] at h
      rcases h with rfl | h
      · exact Or.inr List.mem_cons_self
      · exact (ih h).imp_right (List.mem_cons_of_mem _)

theorem Ascending.insert [Std.TransOrd κ] [Std.LawfulEqOrd κ]
    {table : Table κ α} (key : κ) (value : α) (h : table.Ascending) :
    (Table.insert key value table).Ascending := by
  fun_induction Table.insert key value table with
  | case1 => simp [Ascending]
  | case2 k v rest hlt =>
      refine List.pairwise_cons.2 ⟨fun entry hentry => ?_, h⟩
      rcases List.mem_cons.1 hentry with rfl | hrest
      · exact hlt
      · exact Std.TransCmp.lt_trans hlt ((List.pairwise_cons.1 h).1 entry hrest)
  | case3 k v rest heq =>
      have : key = k := Std.LawfulEqOrd.eq_of_compare heq
      subst this
      exact List.pairwise_cons.2 ⟨(List.pairwise_cons.1 h).1,
        (List.pairwise_cons.1 h).2⟩
  | case4 k v rest hgt ih =>
      refine List.pairwise_cons.2 ⟨fun entry hentry => ?_,
        ih (List.pairwise_cons.1 h).2⟩
      rcases mem_insert hentry with rfl | hrest
      · exact Std.OrientedCmp.lt_of_gt hgt
      · exact (List.pairwise_cons.1 h).1 entry hrest

end Table

end Scriptlet
