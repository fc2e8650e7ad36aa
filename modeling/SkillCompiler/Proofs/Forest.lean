import SkillCompiler.Forest

/-!
# Forests with keys

A forest whose nodes carry keys can be changed at one key: `rewriteAt` puts a forest in the place of
the tree that has the key. If no key occurs twice, a tree is changed at one place at most, and two
changes of which the second looks only at what the first put in are one change
(`rewriteAt_rewriteAt`).
-/

namespace SkillCompiler

namespace Forest

variable {α β γ κ : Type}

/-- Changes every label. -/
def map (f : α → β) : Forest α → Forest β
  | nil => nil
  | node a below after => node (f a) (below.map f) (after.map f)

@[simp] theorem map_nil (f : α → β) : (nil : Forest α).map f = nil := rfl

@[simp] theorem map_node (f : α → β) (a : α) (b c : Forest α) :
    (node a b c).map f = node (f a) (b.map f) (c.map f) := rfl

@[simp] theorem map_append (f : α → β) (s t : Forest α) : (s ++ t).map f = s.map f ++ t.map f := by
  induction s with
  | nil => rfl
  | node a b c _ ih => simp [ih]

theorem map_map (g : β → γ) (f : α → β) (t : Forest α) :
    (t.map f).map g = t.map fun a => g (f a) := by
  induction t with
  | nil => rfl
  | node a b c ihb ihc => simp [ihb, ihc]

@[simp] theorem preorder_nil : (nil : Forest α).preorder = [] := rfl

@[simp] theorem preorder_node (a : α) (b c : Forest α) :
    (node a b c).preorder = a :: (b.preorder ++ c.preorder) := rfl

theorem preorder_map (f : α → β) (t : Forest α) : (t.map f).preorder = t.preorder.map f := by
  induction t with
  | nil => rfl
  | node a b c ihb ihc => simp [ihb, ihc]

theorem map_congr {f g : α → β} {t : Forest α} (h : ∀ a ∈ t.preorder, f a = g a) :
    t.map f = t.map g := by
  induction t with
  | nil => rfl
  | node a b c ihb ihc =>
    simp only [preorder_node, List.mem_cons, List.mem_append] at h
    rw [map_node, map_node, h a (Or.inl rfl), ihb fun x hx => h x (Or.inr (Or.inl hx)),
      ihc fun x hx => h x (Or.inr (Or.inr hx))]

theorem map_id' {f : α → α} {t : Forest α} (h : ∀ a ∈ t.preorder, f a = a) : t.map f = t := by
  induction t with
  | nil => rfl
  | node a b c ihb ihc =>
    simp only [preorder_node, List.mem_cons, List.mem_append] at h
    rw [map_node, h a (Or.inl rfl), ihb fun x hx => h x (Or.inr (Or.inl hx)),
      ihc fun x hx => h x (Or.inr (Or.inr hx))]

/-- Takes out every tree whose label satisfies `p`. -/
def prune (p : α → Bool) : Forest α → Forest α
  | nil => nil
  | node a below after =>
    if p a then after.prune p else node a (below.prune p) (after.prune p)

theorem prune_prune (p q : α → Bool) (t : Forest α) :
    (t.prune p).prune q = t.prune fun a => p a || q a := by
  induction t with
  | nil => rfl
  | node a b c ihb ihc => cases hp : p a <;> cases hq : q a <;> simp [prune, hp, hq, ihb, ihc]

/-- Puts `h` in the place of each tree whose label satisfies `p`, from the leaves up. -/
def rewriteWhere (p : α → Bool) (h : α → Forest α → Forest α) : Forest α → Forest α
  | nil => nil
  | node a below after =>
    if p a then h a (below.rewriteWhere p h) ++ after.rewriteWhere p h
    else node a (below.rewriteWhere p h) (after.rewriteWhere p h)

theorem rewriteWhere_nil (p : α → Bool) (t : Forest α) :
    t.rewriteWhere p (fun _ _ => nil) = t.prune p := by
  induction t with
  | nil => rfl
  | node a b c ihb ihc => cases hp : p a <;> simp [rewriteWhere, prune, hp, ihb, ihc]

theorem rewriteWhere_label {p : α → Bool} {f : α → α} (hf : ∀ a, p a = false → f a = a)
    (t : Forest α) : t.rewriteWhere p (fun a b => node (f a) b nil) = t.map f := by
  induction t with
  | nil => rfl
  | node a b c ihb ihc => cases hp : p a <;> simp [rewriteWhere, hp, ihb, ihc, hf]

/-! ## Keys -/

/-- The keys of all nodes, in document order. -/
def keys (t : Forest (κ × α)) : List κ := t.preorder.map Prod.fst

/-- The keys of the roots. -/
def rootKeys : Forest (κ × α) → List κ
  | nil => []
  | node p _ after => p.1 :: after.rootKeys

@[simp] theorem keys_nil : (nil : Forest (κ × α)).keys = [] := rfl

@[simp] theorem keys_node (p : κ × α) (b c : Forest (κ × α)) :
    (node p b c).keys = p.1 :: (b.keys ++ c.keys) := by
  simp [keys]

@[simp] theorem keys_append (s t : Forest (κ × α)) : (s ++ t).keys = s.keys ++ t.keys := by
  simp [keys]

@[simp] theorem rootKeys_nil : (nil : Forest (κ × α)).rootKeys = [] := rfl

@[simp] theorem rootKeys_node (p : κ × α) (b c : Forest (κ × α)) :
    (node p b c).rootKeys = p.1 :: c.rootKeys := rfl

@[simp] theorem rootKeys_append (s t : Forest (κ × α)) :
    (s ++ t).rootKeys = s.rootKeys ++ t.rootKeys := by
  induction s with
  | nil => rfl
  | node p b c _ ih => simp [ih]

theorem length_keys (t : Forest (κ × α)) : t.keys.length = t.size := by
  rw [keys, List.length_map, length_preorder]

theorem mem_keys_of_mem_rootKeys {k : κ} :
    ∀ {t : Forest (κ × α)}, k ∈ t.rootKeys → k ∈ t.keys
  | nil, h => by simp at h
  | node p b c, h => by
    simp only [rootKeys_node, List.mem_cons] at h
    simp only [keys_node, List.mem_cons, List.mem_append]
    rcases h with h | h
    · exact Or.inl h
    · exact Or.inr (Or.inr (mem_keys_of_mem_rootKeys h))

/-- A change of labels that leaves the keys. -/
def relabel (f : κ → α → β) (t : Forest (κ × α)) : Forest (κ × β) :=
  t.map fun p => (p.1, f p.1 p.2)

@[simp] theorem relabel_nil (f : κ → α → β) : relabel f nil = nil := rfl

@[simp] theorem relabel_node (f : κ → α → β) (p : κ × α) (b c : Forest (κ × α)) :
    relabel f (node p b c) = node (p.1, f p.1 p.2) (relabel f b) (relabel f c) := rfl

@[simp] theorem keys_relabel (f : κ → α → β) (t : Forest (κ × α)) :
    (t.relabel f).keys = t.keys := by
  simp [keys, relabel, preorder_map]

@[simp] theorem rootKeys_relabel (f : κ → α → β) (t : Forest (κ × α)) :
    (t.relabel f).rootKeys = t.rootKeys := by
  induction t with
  | nil => rfl
  | node p b c _ ih => simp [ih]

theorem relabel_id' {f : κ → α → α} {t : Forest (κ × α)} (h : ∀ p ∈ t.preorder, f p.1 p.2 = p.2) :
    t.relabel f = t :=
  map_id' fun p hp => by rw [h p hp]

/-! ## Changing a forest at a key -/

variable [DecidableEq κ]

/-- Puts `h` of a label and what is below it in the place of each tree with a key. -/
def rewriteAt (k : κ) (h : α → Forest (κ × α) → Forest (κ × α)) :
    Forest (κ × α) → Forest (κ × α)
  | nil => nil
  | node p below after =>
    if p.1 = k then h p.2 below ++ rewriteAt k h after
    else node p (rewriteAt k h below) (rewriteAt k h after)

variable {k : κ} {h : α → Forest (κ × α) → Forest (κ × α)}

@[simp] theorem rewriteAt_nil : rewriteAt k h nil = nil := rfl

theorem rewriteAt_node_self (a : α) (b c : Forest (κ × α)) :
    rewriteAt k h (node (k, a) b c) = h a b ++ rewriteAt k h c := by
  simp [rewriteAt]

theorem rewriteAt_node_ne {p : κ × α} (hp : p.1 ≠ k) (b c : Forest (κ × α)) :
    rewriteAt k h (node p b c) = node p (rewriteAt k h b) (rewriteAt k h c) := by
  simp [rewriteAt, hp]

theorem rewriteAt_append (s t : Forest (κ × α)) :
    rewriteAt k h (s ++ t) = rewriteAt k h s ++ rewriteAt k h t := by
  induction s with
  | nil => rfl
  | node p b c _ ih =>
    by_cases hp : p.1 = k
    · simp [rewriteAt, hp, ih, append_assoc]
    · simp [rewriteAt, hp, ih]

theorem rewriteAt_of_notMem :
    ∀ {t : Forest (κ × α)}, k ∉ t.keys → rewriteAt k h t = t
  | nil, _ => rfl
  | node p b c, hk => by
    simp only [keys_node, List.mem_cons, List.mem_append, not_or] at hk
    rw [rewriteAt_node_ne (Ne.symm hk.1), rewriteAt_of_notMem hk.2.1, rewriteAt_of_notMem hk.2.2]

/-- The roots after a change: the root with the key gives way to the roots put in its place. -/
theorem rootKeys_rewriteAt {new : List κ} (hnew : ∀ a b, (h a b).rootKeys = new) :
    ∀ t : Forest (κ × α),
      (rewriteAt k h t).rootKeys = t.rootKeys.flatMap fun x => if x = k then new else [x]
  | nil => rfl
  | node p b c => by
    by_cases hp : p.1 = k
    · simp [rewriteAt, hp, hnew, rootKeys_rewriteAt hnew c]
    · simp [rewriteAt, hp, rootKeys_rewriteAt hnew c]

/-- The keys after a change are old ones or those of what was put in. -/
theorem mem_keys_rewriteAt {fresh : List κ}
    (hsub : ∀ a b, ∀ x ∈ (h a b).keys, x = k ∨ x ∈ b.keys ∨ x ∈ fresh) {x : κ} :
    ∀ {t : Forest (κ × α)}, x ∈ (rewriteAt k h t).keys → x ∈ t.keys ∨ x ∈ fresh
  | nil, hx => by simp at hx
  | node p b c, hx => by
    simp only [keys_node, List.mem_cons, List.mem_append]
    by_cases hp : p.1 = k
    · rw [rewriteAt, if_pos hp, keys_append, List.mem_append] at hx
      rcases hx with hx | hx
      · rcases hsub _ _ x hx with rfl | hx | hx
        · exact Or.inl (Or.inl hp.symm)
        · exact Or.inl (Or.inr (Or.inl hx))
        · exact Or.inr hx
      · rcases mem_keys_rewriteAt hsub hx with hx | hx
        · exact Or.inl (Or.inr (Or.inr hx))
        · exact Or.inr hx
    · rw [rewriteAt_node_ne hp, keys_node, List.mem_cons, List.mem_append] at hx
      rcases hx with rfl | hx | hx
      · exact Or.inl (Or.inl rfl)
      · rcases mem_keys_rewriteAt hsub hx with hx | hx
        · exact Or.inl (Or.inr (Or.inl hx))
        · exact Or.inr hx
      · rcases mem_keys_rewriteAt hsub hx with hx | hx
        · exact Or.inl (Or.inr (Or.inr hx))
        · exact Or.inr hx

/-- No key occurs twice after a change that puts in fresh keys only. -/
theorem nodup_rewriteAt (fresh : List κ)
    (hsub : ∀ a b, ∀ x ∈ (h a b).keys, x = k ∨ x ∈ b.keys ∨ x ∈ fresh)
    (hnd : ∀ a b, b.keys.Nodup → k ∉ b.keys → (∀ x ∈ fresh, x ≠ k ∧ x ∉ b.keys) →
      (h a b).keys.Nodup) :
    ∀ {t : Forest (κ × α)}, t.keys.Nodup → (∀ x ∈ fresh, x ∉ t.keys) →
      (rewriteAt k h t).keys.Nodup
  | nil, _, _ => by simp
  | node p b c, ht, hf => by
    simp only [keys_node, List.nodup_cons, List.nodup_append, List.mem_append, not_or] at ht
    obtain ⟨⟨hpb, hpc⟩, hb, hc, hbc⟩ := ht
    have hfb : ∀ x ∈ fresh, x ∉ b.keys := fun x hx hxb => hf x hx (by simp [hxb])
    have hfc : ∀ x ∈ fresh, x ∉ c.keys := fun x hx hxc => hf x hx (by simp [hxc])
    have hfp : ∀ x ∈ fresh, x ≠ p.1 := fun x hx hxp => hf x hx (by simp [hxp])
    by_cases hp : p.1 = k
    · subst hp
      rw [rewriteAt, if_pos rfl, rewriteAt_of_notMem hpc, keys_append, List.nodup_append]
      refine ⟨hnd _ _ hb hpb fun x hx => ⟨hfp x hx, hfb x hx⟩, hc, ?_⟩
      rintro x hx y hy rfl
      rcases hsub _ _ x hx with rfl | hx | hx
      · exact hpc hy
      · exact hbc x hx x hy rfl
      · exact hfc x hx hy
    · have ihb := nodup_rewriteAt fresh hsub hnd hb hfb
      have ihc := nodup_rewriteAt fresh hsub hnd hc hfc
      rw [rewriteAt_node_ne hp, keys_node, List.nodup_cons, List.mem_append, List.nodup_append]
      refine ⟨?_, ihb, ihc, ?_⟩
      · rintro (hx | hx)
        · rcases mem_keys_rewriteAt hsub hx with hx | hx
          · exact hpb hx
          · exact hfp _ hx rfl
        · rcases mem_keys_rewriteAt hsub hx with hx | hx
          · exact hpc hx
          · exact hfp _ hx rfl
      · -- The key stands on one side only, and the other side is as it was.
        rintro x hx y hy rfl
        by_cases hk : k ∈ b.keys
        · rw [rewriteAt_of_notMem fun hkc => hbc k hk k hkc rfl] at hy
          rcases mem_keys_rewriteAt hsub hx with hx | hx
          · exact hbc x hx x hy rfl
          · exact hfc x hx hy
        · rw [rewriteAt_of_notMem hk] at hx
          rcases mem_keys_rewriteAt hsub hy with hy | hy
          · exact hbc x hx x hy rfl
          · exact hfb x hy hx

/-- A second change at the same key, or at one that the first change put in, is made on what the
first one put in. -/
theorem rewriteAt_rewriteAt {j : κ} {g : α → Forest (κ × α) → Forest (κ × α)} :
    ∀ {t : Forest (κ × α)}, (j ∈ t.keys → j = k) →
      rewriteAt j g (rewriteAt k h t) = rewriteAt k (fun a b => rewriteAt j g (h a b)) t
  | nil, _ => rfl
  | node p b c, hj => by
    simp only [keys_node, List.mem_cons, List.mem_append] at hj
    have ihc := rewriteAt_rewriteAt (g := g) (t := c) fun hx => hj (Or.inr (Or.inr hx))
    by_cases hp : p.1 = k
    · rw [rewriteAt, if_pos hp, rewriteAt_append, ihc, rewriteAt, if_pos hp]
    · have hpj : p.1 ≠ j := fun he => hp (he.trans (hj (Or.inl he.symm)))
      rw [rewriteAt_node_ne hp, rewriteAt_node_ne hpj, rewriteAt_node_ne hp, ihc,
        rewriteAt_rewriteAt fun hx => hj (Or.inr (Or.inl hx))]

end Forest

end SkillCompiler
