import SkillCompiler.Assoc

/-!
# What tables hold

A value is put in under a name, in place if the name is there. A table of different names holds what
it lists (`get?_of_mem`), and names that come in one after another, each only once, are in the order
of their first appearance (`eraseDups_concat`).
-/

namespace SkillCompiler

namespace Assoc

variable {α : Type}

/-! ## Values -/

theorem get?_cons (entry : String × α) (table : Assoc α) (name : String) :
    get? (entry :: table) name = if entry.1 = name then some entry.2 else table.get? name := by
  unfold get?
  rw [List.find?_cons]
  by_cases h : entry.1 = name <;> simp [h]

theorem get?_append (table rest : Assoc α) (name : String) :
    get? (table ++ rest) name = (table.get? name).or (rest.get? name) := by
  rw [get?, get?, get?, List.find?_append, Option.map_or]

theorem contains_eq_isSome (table : Assoc α) (name : String) :
    table.contains name = (table.get? name).isSome := by
  rw [get?, Option.isSome_map, contains, List.isSome_find?]

theorem get?_insert (name : String) (value : α) (other : String) :
    ∀ table : Assoc α,
      (insert name value table).get? other = if name = other then some value else table.get? other
  | [] => get?_cons ..
  | entry :: table => by
    unfold insert
    split
    · rename_i h
      rw [get?_cons, get?_cons, h]
      split <;> rfl
    · rename_i h
      rw [get?_cons, get?_cons, get?_insert name value other table]
      by_cases hother : name = other
      · simp [← hother, h]
      · simp [hother]

theorem get?_insertNew (table : Assoc α) (name : String) (value : α) (other : String) :
    (table.insertNew name value).get? other =
      (table.get? other).or (if name = other then some value else none) := by
  unfold insertNew
  rw [contains_eq_isSome]
  split
  · rename_i h
    split
    · rename_i heq
      obtain ⟨old, hold⟩ := Option.isSome_iff_exists.1 h
      rw [← heq, hold]
      rfl
    · rw [Option.or_none]
  · rw [get?_append, get?_cons]
    rfl

theorem get?_foldl_insert (value : α) (name : String) :
    ∀ (names : List String) (table : Assoc α),
      (names.foldl (fun table name => table.insert name value) table).get? name =
        if name ∈ names then some value else table.get? name
  | [], table => by simp
  | first :: names, table => by
    rw [List.foldl_cons, get?_foldl_insert value name names, get?_insert]
    by_cases h : name ∈ names
    · simp [h]
    · simp [h, eq_comm]

/-- Of the entries that are put in one after another, the first with a name counts. -/
theorem get?_foldl_insertNew {β : Type} (key : β → String) (value : β → α) (name : String) :
    ∀ (entries : List β) (table : Assoc α),
      (entries.foldl (fun table entry => table.insertNew (key entry) (value entry)) table).get?
        name = (table.get? name).or ((entries.find? fun entry => key entry = name).map value)
  | [], table => Option.or_none.symm
  | entry :: entries, table => by
    rw [List.foldl_cons, get?_foldl_insertNew key value name entries, get?_insertNew,
      Option.or_assoc, List.find?_cons]
    by_cases h : key entry = name <;> simp [h]

theorem get?_of_mem {name : String} {value : α} :
    ∀ {table : Assoc α}, table.names.Nodup → (name, value) ∈ table → table.get? name = some value
  | [], _, h => by cases h
  | entry :: table, hdistinct, h => by
    rw [names, List.map_cons, List.nodup_cons] at hdistinct
    rw [get?_cons]
    rcases List.mem_cons.1 h with rfl | h
    · rw [if_pos rfl]
    · have hne : entry.1 ≠ name := fun he => hdistinct.1 (he ▸ List.mem_map_of_mem h)
      rw [if_neg hne, get?_of_mem hdistinct.2 h]

/-! ## Names -/

theorem insert_of_notMem {name : String} {value : α} :
    ∀ {table : Assoc α}, name ∉ table.names → insert name value table = table ++ [(name, value)]
  | [], _ => rfl
  | entry :: rest, h => by
    simp only [names, List.map_cons, List.mem_cons, not_or] at h
    rw [insert, if_neg (Ne.symm h.1), insert_of_notMem h.2, List.cons_append]

theorem insert_concat {name : String} {value old : α} :
    ∀ {table : Assoc α}, name ∉ table.names →
      insert name value (table ++ [(name, old)]) = table ++ [(name, value)]
  | [], _ => by simp [insert]
  | entry :: rest, h => by
    simp only [names, List.map_cons, List.mem_cons, not_or] at h
    rw [List.cons_append, insert, if_neg (Ne.symm h.1), insert_concat h.2, List.cons_append]

theorem names_insertNew (table : Assoc α) (name : String) (value : α) :
    (table.insertNew name value).names =
      if name ∈ table.names then table.names else table.names ++ [name] := by
  have hcontains : table.contains name ↔ name ∈ table.names := by simp [contains, names]
  unfold insertNew
  rw [apply_ite names]
  simp only [hcontains]
  simp [names]

theorem get?_map (f : String → α) (name : String) :
    ∀ l : List String,
      get? (l.map fun n => (n, f n)) name = if name ∈ l then some (f name) else none
  | [] => rfl
  | n :: l => by
    have ih := get?_map f name l
    by_cases h : n = name
    · simp [get?, h]
    · simp only [get?, List.map_cons, List.find?_cons, h, decide_false, List.mem_cons, Ne.symm h,
        false_or] at ih ⊢
      exact ih

theorem eraseDups_concat (l : List String) (a : String) :
    (l ++ [a]).eraseDups = if a ∈ l then l.eraseDups else l.eraseDups ++ [a] := by
  rw [List.eraseDups_append]
  by_cases h : a ∈ l <;> simp [List.removeAll, List.eraseDups_cons, h]

theorem nodup_eraseDups : ∀ l : List String, l.eraseDups.Nodup
  | [] => List.nodup_nil
  | a :: l => by
    rw [List.eraseDups_cons, List.nodup_cons, List.mem_eraseDups]
    exact ⟨by simp, nodup_eraseDups _⟩
termination_by l => l.length
decreasing_by exact Nat.lt_succ_of_le (List.length_filter_le ..)

end Assoc

end SkillCompiler
