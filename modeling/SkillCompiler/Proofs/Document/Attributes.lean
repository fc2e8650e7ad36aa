import Mathlib.Data.List.Nodup
import SkillCompiler.Proofs.Document.Parse

/-!
# Lists of attributes

An element that has been read has no two attributes with one name (`Distinct`), and every edit of
attributes keeps it so. Where names are distinct, an edit of the first attribute with a name is an
edit of all of them.
-/

namespace SkillCompiler

/-- Changes the value of the first attribute with a name, if there is one. -/
def updated (name : String) (f : String → String) (as : List Attribute) : List Attribute :=
  match lookupAttribute name as with
  | some value => setAttribute name (f value) as
  | none => as

theorem updated_cons_self (name : String) (f : String → String) {a : Attribute}
    (h : a.name = name) (as : List Attribute) :
    updated name f (a :: as) = ⟨name, f a.value⟩ :: as := by
  simp [updated, lookupAttribute, setAttribute, h]

theorem updated_cons_ne (name : String) (f : String → String) {a : Attribute}
    (h : a.name ≠ name) (as : List Attribute) :
    updated name f (a :: as) = a :: updated name f as := by
  have hl : lookupAttribute name (a :: as) = lookupAttribute name as := by
    simp [lookupAttribute, h]
  unfold updated
  rw [hl]
  split
  · rw [setAttribute, if_neg h]
  · rfl

theorem lookupAttribute_cons (name : String) (a : Attribute) (as : List Attribute) :
    lookupAttribute name (a :: as) =
      if a.name = name then some a.value else lookupAttribute name as := by
  by_cases h : a.name = name <;> simp [lookupAttribute, h]

theorem lookupAttribute_setAttribute (name value other : String) :
    ∀ as : List Attribute, lookupAttribute other (setAttribute name value as) =
      if name = other then some value else lookupAttribute other as
  | [] => by simp [setAttribute, lookupAttribute_cons]
  | a :: as => by
    rw [setAttribute]
    by_cases ha : a.name = name
    · rw [if_pos ha, lookupAttribute_cons, lookupAttribute_cons, ha]
      by_cases h : name = other <;> simp [h]
    · rw [if_neg ha, lookupAttribute_cons, lookupAttribute_cons,
        lookupAttribute_setAttribute name value other as]
      by_cases h : name = other
      · rw [if_neg fun he => ha (he.trans h.symm)]
        simp [h]
      · simp [h]

namespace Distinct

theorem cons {a : Attribute} {as : List Attribute} :
    Distinct (a :: as) ↔ (∀ b ∈ as, b.name ≠ a.name) ∧ Distinct as := by
  simp [Distinct, List.nodup_cons]

theorem sublist {as bs : List Attribute} (h : Distinct bs) (hs : as.Sublist bs) : Distinct as :=
  List.Nodup.sublist (hs.map _) h

theorem map_eq_self {name : String} {g : Attribute → Attribute} {as : List Attribute}
    (h : ∀ b ∈ as, b.name ≠ name) : as.map (fun a => if a.name = name then g a else a) = as := by
  conv => rhs; rw [← List.map_id as]
  exact List.map_congr_left fun b hb => if_neg (h b hb)

theorem updated_eq_map (name : String) (f : String → String) :
    ∀ {as : List Attribute}, Distinct as →
      updated name f as = as.map fun a => if a.name = name then ⟨name, f a.value⟩ else a
  | [], _ => rfl
  | a :: as, h => by
    obtain ⟨ha, h⟩ := cons.1 h
    by_cases hn : a.name = name
    · rw [updated_cons_self name f hn, List.map_cons, if_pos hn,
        map_eq_self fun b hb => hn ▸ ha b hb]
    · rw [updated_cons_ne name f hn, List.map_cons, if_neg hn, updated_eq_map name f h]

theorem renameFirst_eq_map (old new : String) :
    ∀ {as : List Attribute}, Distinct as →
      renameFirst old new as = as.map fun a => if a.name = old then ⟨new, a.value⟩ else a
  | [], _ => rfl
  | a :: as, h => by
    obtain ⟨ha, h⟩ := cons.1 h
    by_cases hn : a.name = old
    · rw [renameFirst, if_pos hn, List.map_cons, if_pos hn, map_eq_self fun b hb => hn ▸ ha b hb]
    · rw [renameFirst, if_neg hn, List.map_cons, if_neg hn, renameFirst_eq_map old new h]

theorem eraseP_eq_filter (name : String) :
    ∀ {as : List Attribute}, Distinct as →
      as.eraseP (fun a => a.name = name) = as.filter fun a => a.name ≠ name
  | [], _ => rfl
  | a :: as, h => by
    obtain ⟨ha, h⟩ := cons.1 h
    by_cases hn : a.name = name
    · have hrest : as.filter (fun a => a.name ≠ name) = as :=
        List.filter_eq_self.2 fun b hb => by simpa [hn] using ha b hb
      rw [List.eraseP_cons_of_pos (by simpa using hn), List.filter_cons_of_neg (by simpa using hn),
        hrest]
    · rw [List.eraseP_cons_of_neg (by simpa using hn), List.filter_cons_of_pos (by simpa using hn),
        eraseP_eq_filter name h]

theorem map {g : Attribute → Attribute} {as : List Attribute}
    (hg : ∀ a ∈ as, (g a).name = a.name) (h : Distinct as) : Distinct (as.map g) := by
  have hm : (as.map g).map Attribute.name = as.map Attribute.name := by
    rw [List.map_map]
    exact List.map_congr_left hg
  rw [Distinct, hm]
  exact h

theorem updated {name : String} {f : String → String} {as : List Attribute} (h : Distinct as) :
    Distinct (updated name f as) := by
  rw [h.updated_eq_map]
  refine h.map fun a _ => ?_
  split
  · rename_i hn
    exact hn.symm
  · rfl

theorem names_setAttribute (name value : String) :
    ∀ as : List Attribute, (setAttribute name value as).map Attribute.name =
      if name ∈ as.map Attribute.name then as.map Attribute.name
      else as.map Attribute.name ++ [name]
  | [] => rfl
  | a :: as => by
    have ih := names_setAttribute name value as
    unfold SkillCompiler.setAttribute
    by_cases ha : a.name = name
    · simp [ha]
    · rw [if_neg ha, List.map_cons, ih, List.map_cons]
      by_cases hn : name ∈ as.map Attribute.name
      · rw [if_pos hn, if_pos (List.mem_cons_of_mem _ hn)]
      · have hcons : name ∉ a.name :: as.map Attribute.name := by
          rw [List.mem_cons, not_or]
          exact ⟨Ne.symm ha, hn⟩
        rw [if_neg hn, if_neg hcons, List.cons_append]

theorem setAttribute (name value : String) {as : List Attribute} (h : Distinct as) :
    Distinct (setAttribute name value as) := by
  unfold Distinct
  rw [names_setAttribute]
  split
  · exact h
  · rename_i hn
    rw [List.nodup_append]
    refine ⟨h, by simp, ?_⟩
    rintro x hx y hy rfl
    rw [List.mem_singleton] at hy
    exact hn (hy ▸ hx)

/-- After a rename the new name is on the renamed attribute alone. -/
theorem renamed (old new : String) {as : List Attribute} (h : Distinct as) :
    Distinct (renamed old new as) := by
  unfold SkillCompiler.renamed
  split
  · have hk : Distinct (as.filter fun a => a.name ≠ new || a.name = old) :=
      h.sublist List.filter_sublist
    have hnames : ((as.filter fun a => a.name ≠ new || a.name = old).map fun a =>
        if a.name = old then (⟨new, a.value⟩ : Attribute) else a).map Attribute.name =
        ((as.filter fun a => a.name ≠ new || a.name = old).map Attribute.name).map fun n =>
          if n = old then new else n := by
      rw [List.map_map, List.map_map]
      refine List.map_congr_left fun a _ => ?_
      by_cases ha : a.name = old <;> simp [ha]
    have hne : ∀ n ∈ (as.filter fun a => a.name ≠ new || a.name = old).map Attribute.name,
        n ≠ old → n ≠ new := by
      intro n hn ho
      obtain ⟨a, ha, rfl⟩ := List.mem_map.1 hn
      simpa [ho] using (List.mem_filter.1 ha).2
    rw [hk.renameFirst_eq_map, Distinct, hnames]
    refine List.Nodup.map_on (fun x hx y hy hxy => ?_) hk
    by_cases hxo : x = old <;> by_cases hyo : y = old
    · rw [hxo, hyo]
    · rw [if_pos hxo, if_neg hyo] at hxy
      exact absurd hxy.symm (hne y hy hyo)
    · rw [if_neg hxo, if_pos hyo] at hxy
      exact absurd hxy (hne x hx hxo)
    · rwa [if_neg hxo, if_neg hyo] at hxy
  · exact h

end Distinct

end SkillCompiler
