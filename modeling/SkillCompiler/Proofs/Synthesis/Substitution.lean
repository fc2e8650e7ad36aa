import SkillCompiler.Proofs.Assoc
import SkillCompiler.Proofs.Text.Replace
import SkillCompiler.Synthesis.Placeholder

/-!
# Filling in placeholders

A table of placeholders is applied by one replacement after another, each on the text that the one
before it has left. A text in which literals and keys alternate (`Layout`) stays such a text: a
replacement merges the literals around its key with the value between them (`replaceAll_print`). The
dollar signs of two neighbouring keys could enclose a name only by the text between them, which is
always a span of the first text: a literal, or several with the values of the keys between them
(`spans_fill`). If no span is the name of a key, applying the table is filling in all keys at once,
whatever the order of the table (`apply_fills_at_once`).
-/

namespace SkillCompiler

namespace Placeholders

/-- The placeholder with a name. -/
def mark (name : String) : String := "$" ++ name ++ "$"

/-- The value that a table has for a placeholder. -/
def value (table : Placeholders) (key : String) : String := (Assoc.get? table key).getD ""

/-- A text in which literals and keys alternate. -/
inductive Layout where
  | last (literal : String)
  | next (literal key : String) (rest : Layout)

namespace Layout

def print : Layout → String
  | last literal => literal
  | next literal key rest => literal ++ (key ++ rest.print)

/-- The text with its keys filled in. -/
def filled (value : String → String) : Layout → String
  | last literal => literal
  | next literal key rest => literal ++ (value key ++ rest.filled value)

def first : Layout → String
  | last literal => literal
  | next literal _ _ => literal

def literals : Layout → List String
  | last literal => [literal]
  | next literal _ rest => literal :: rest.literals

def keys : Layout → List String
  | last _ => []
  | next _ key rest => key :: rest.keys

/-- The texts from the first literal to any literal, with the keys between them filled in. -/
def starts (value : String → String) : Layout → List String
  | last literal => [literal]
  | next literal key rest =>
    literal :: (rest.starts value).map fun span => literal ++ (value key ++ span)

/-- The texts from any literal to any later one, with the keys between them filled in. -/
def spans (value : String → String) : Layout → List String
  | last literal => [literal]
  | next literal key rest => (next literal key rest).starts value ++ rest.spans value

/-- Puts a text before the first literal. -/
def prepend (before : String) : Layout → Layout
  | last literal => last (before ++ literal)
  | next literal key rest => next (before ++ literal) key rest

/-- Fills in one key. -/
def fill (filling value : String) : Layout → Layout
  | last literal => last literal
  | next literal key rest =>
    if key = filling then (rest.fill filling value).prepend (literal ++ value)
    else next literal key (rest.fill filling value)

/-! ## Literals and spans -/

variable {value : String → String} {key v : String} {t : Layout}

theorem first_mem_literals : ∀ t : Layout, t.first ∈ t.literals
  | last _ => List.mem_singleton_self _
  | next .. => List.mem_cons_self

theorem starts_subset_spans (value : String → String) :
    ∀ t : Layout, t.starts value ⊆ t.spans value
  | last _ => List.Subset.refl _
  | next .. => List.subset_append_left ..

theorem literals_subset_spans (value : String → String) :
    ∀ t : Layout, t.literals ⊆ t.spans value
  | last _ => List.Subset.refl _
  | next literal key rest => by
    rw [literals, List.cons_subset]
    have hrest : rest.spans value ⊆ (next literal key rest).spans value :=
      List.subset_append_right ..
    exact ⟨starts_subset_spans value _ List.mem_cons_self,
      List.Subset.trans (literals_subset_spans value rest) hrest⟩

/-- A character of a span is one of a literal or of a value. -/
theorem notMem_of_mem_spans {c : Char} :
    ∀ {t : Layout}, (∀ l ∈ t.literals, c ∉ l.toList) → (∀ k ∈ t.keys, c ∉ (value k).toList) →
      (∀ s ∈ t.starts value, c ∉ s.toList) ∧ ∀ s ∈ t.spans value, c ∉ s.toList
  | last _, hl, _ => ⟨hl, hl⟩
  | next literal key rest, hl, hk => by
    rw [literals, List.forall_mem_cons] at hl
    rw [keys, List.forall_mem_cons] at hk
    obtain ⟨hstarts, hspans⟩ := notMem_of_mem_spans hl.2 hk.2
    have hfirst : ∀ s ∈ (next literal key rest).starts value, c ∉ s.toList := by
      rw [starts, List.forall_mem_cons, List.forall_mem_map]
      refine ⟨hl.1, fun s hs => ?_⟩
      simp [hl.1, hk.1, hstarts s hs]
    refine ⟨hfirst, fun s hs => ?_⟩
    rcases List.mem_append.1 hs with hs | hs
    · exact hfirst s hs
    · exact hspans s hs

/-! ## Filling in one key -/

theorem print_prepend (before : String) :
    ∀ t : Layout, (t.prepend before).print = before ++ t.print
  | last _ => rfl
  | next .. => String.append_assoc ..

theorem filled_prepend (value : String → String) (before : String) :
    ∀ t : Layout, (t.prepend before).filled value = before ++ t.filled value
  | last _ => rfl
  | next .. => String.append_assoc ..

theorem keys_prepend (before : String) : ∀ t : Layout, (t.prepend before).keys = t.keys
  | last _ => rfl
  | next .. => rfl

theorem starts_prepend (value : String → String) (before : String) :
    ∀ t : Layout, (t.prepend before).starts value = (t.starts value).map (before ++ ·)
  | last _ => rfl
  | next .. => by simp [prepend, starts, Function.comp_def, String.append_assoc]

theorem mem_spans_prepend {before s : String} :
    ∀ {t : Layout}, s ∈ (t.prepend before).spans value →
      s ∈ (t.prepend before).starts value ∨ s ∈ t.spans value
  | last _, h => .inl h
  | next .., h => (List.mem_append.1 h).imp_right fun h => List.mem_append_right _ h

theorem filled_fill (hv : value key = v) :
    ∀ t : Layout, (t.fill key v).filled value = t.filled value
  | last _ => rfl
  | next literal other rest => by
    have ih := filled_fill hv rest
    rw [fill]
    split
    · rename_i h
      rw [filled_prepend, ih, filled, h, hv, String.append_assoc]
    · rw [filled, filled, ih]

theorem mem_keys_fill {k : String} :
    ∀ {t : Layout}, k ∈ (t.fill key v).keys → k ∈ t.keys ∧ k ≠ key
  | next literal other rest, h => by
    rw [fill] at h
    split at h
    · rw [keys_prepend] at h
      exact ⟨List.mem_cons_of_mem _ (mem_keys_fill h).1, (mem_keys_fill h).2⟩
    · rename_i hne
      rcases List.mem_cons.1 h with rfl | h
      · exact ⟨List.mem_cons_self, hne⟩
      · exact ⟨List.mem_cons_of_mem _ (mem_keys_fill h).1, (mem_keys_fill h).2⟩

theorem starts_fill (hv : value key = v) :
    ∀ t : Layout, (t.fill key v).starts value ⊆ t.starts value
  | last _ => List.Subset.refl _
  | next literal other rest => by
    have ih := starts_fill hv rest
    rw [fill]
    split
    · rename_i h
      rw [starts_prepend, starts, h, hv]
      refine List.subset_cons_of_subset _ fun s hs => ?_
      obtain ⟨span, hspan, rfl⟩ := List.mem_map.1 hs
      exact List.mem_map.2 ⟨span, ih hspan, (String.append_assoc ..).symm⟩
    · exact List.cons_subset_cons _ (List.map_subset _ ih)

/-- What is between two keys after one key is filled in was between two keys before. -/
theorem spans_fill (hv : value key = v) :
    ∀ t : Layout, (t.fill key v).spans value ⊆ t.spans value
  | last _ => List.Subset.refl _
  | next literal other rest => by
    have ih := spans_fill hv rest
    have hstarts := starts_fill hv (next literal other rest)
    intro s hs
    rw [fill] at hs hstarts
    split at hs
    · rename_i h
      rw [if_pos h] at hstarts
      rcases mem_spans_prepend hs with hs | hs
      · exact List.mem_append_left _ (hstarts hs)
      · exact List.mem_append_right _ (ih hs)
    · rename_i h
      rw [if_neg h] at hstarts
      rcases List.mem_append.1 hs with hs | hs
      · exact List.mem_append_left _ (hstarts hs)
      · exact List.mem_append_right _ (ih hs)

end Layout

/-! ## One replacement -/

theorem toList_mark (name : String) : (mark name).toList = '$' :: (name.toList ++ ['$']) := by
  simp [mark]

/-- A key is a name between dollar signs, which has none itself. -/
def IsKey (key : String) : Prop := ∃ name, '$' ∉ name.toList ∧ key = mark name

/-- The replacement of one key passes over another. -/
theorem replaceAll_append_of_ne {name other before rest : String} (hname : '$' ∉ name.toList)
    (hother : '$' ∉ other.toList) (hbefore : '$' ∉ before.toList) (hne : other ≠ name)
    (hrest : rest.toList.takeWhile (· ≠ '$') ≠ name.toList) (v : String) :
    Text.replaceAll (mark name) v (before ++ (mark other ++ rest)) =
      before ++ (mark other ++ Text.replaceAll (mark name) v rest) := by
  have hmark : mark name ≠ "" := by
    rw [Ne, ← String.toList_inj, toList_mark]
    simp
  rw [Text.replaceAll_eq hmark, Text.replaceAll_eq hmark, ← String.toList_inj]
  simp only [String.toList_append, String.toList_ofList, toList_mark, List.cons_append,
    List.append_assoc, List.nil_append]
  have hafter : (other.toList ++ '$' :: rest.toList).takeWhile (· ≠ '$') ≠ name.toList := by
    rw [Text.takeWhile_ne_append_cons, Text.takeWhile_ne_eq_self hother]
    exact fun h => hne (String.toList_inj.1 h)
  rw [Text.substitute_append hbefore, Text.substitute_cons hname hafter,
    Text.substitute_append hother, Text.substitute_cons hname hrest]

theorem takeWhile_print {t : Layout} (hfirst : '$' ∉ t.first.toList)
    (hkeys : ∀ k ∈ t.keys, IsKey k) :
    t.print.toList.takeWhile (· ≠ '$') = t.first.toList := by
  cases t with
  | last literal => exact Text.takeWhile_ne_eq_self hfirst
  | next literal key rest =>
    obtain ⟨name, -, rfl⟩ := hkeys key List.mem_cons_self
    rw [Layout.print, String.toList_append, String.toList_append, toList_mark, List.cons_append,
      Text.takeWhile_ne_append_cons]
    exact Text.takeWhile_ne_eq_self hfirst

/-- Where no literal is its name, the replacement of a key fills it in. -/
theorem replaceAll_print {key : String} (hkey : IsKey key) (v : String) :
    ∀ {t : Layout}, (∀ l ∈ t.literals, '$' ∉ l.toList ∧ mark l ≠ key) → (∀ k ∈ t.keys, IsKey k) →
      Text.replaceAll key v t.print = (t.fill key v).print
  | .last literal, hliterals, _ => by
    obtain ⟨name, hname, rfl⟩ := hkey
    have hfree := (hliterals literal (List.mem_singleton_self _)).1
    refine Text.replaceAll_eq_self ?_ v fun hinfix => hfree ( hinfix.subset ?_)
    · rw [Ne, ← String.toList_inj, toList_mark]
      simp
    · rw [toList_mark]
      exact List.mem_cons_self
  | .next literal other rest, hliterals, hkeys => by
    rw [Layout.literals, List.forall_mem_cons] at hliterals
    rw [Layout.keys, List.forall_mem_cons] at hkeys
    have ih := replaceAll_print hkey v hliterals.2 hkeys.2
    obtain ⟨name, hname, rfl⟩ := hkey
    rw [Layout.print, Layout.fill]
    by_cases hsame : other = mark name
    · have hhead : (mark name).toList.head? = some '$' := by
        rw [toList_mark]
        rfl
      rw [if_pos hsame, hsame, Text.replaceAll_append hhead hliterals.1.1, ih,
        Layout.print_prepend, String.append_assoc]
    · obtain ⟨⟨o, ho, rfl⟩, hkeys⟩ := hkeys
      have hfirst := hliterals.2 _ rest.first_mem_literals
      have hrest : rest.print.toList.takeWhile (· ≠ '$') ≠ name.toList := by
        rw [takeWhile_print hfirst.1 hkeys]
        exact fun h => hfirst.2 (congrArg mark (String.toList_inj.1 h))
      have hne : o ≠ name := fun h => hsame (congrArg mark h)
      rw [if_neg hsame, replaceAll_append_of_ne hname ho hliterals.1.1 hne hrest, ih, Layout.print]

/-! ## A whole table -/

/-- What is left to do in a text while a table is applied to it: its keys are in the table, and no
span of it is the name of a key. -/
structure Awaits (value : String → String) (table : Placeholders) (t : Layout) : Prop where
  keys : ∀ k ∈ t.keys, k ∈ Assoc.names table
  spans : ∀ s ∈ t.spans value, '$' ∉ s.toList ∧ mark s ∉ Assoc.names table

theorem Awaits.fill {value : String → String} {table : Placeholders} {t : Layout} {key v : String}
    (hv : value key = v) (h : Awaits value ((key, v) :: table) t) :
    Awaits value table (t.fill key v) := by
  refine ⟨fun k hk => ?_, fun s hs => ?_⟩
  · obtain ⟨hmem, hne⟩ := Layout.mem_keys_fill hk
    exact (List.mem_cons.1 (h.keys k hmem)).resolve_left hne
  · obtain ⟨hfree, hmark⟩ := h.spans s (Layout.spans_fill hv t hs)
    exact ⟨hfree, fun hmem => hmark (List.mem_cons_of_mem _ hmem)⟩

theorem apply_cons (placeholder value : String) (table : Placeholders) (text : String) :
    apply ((placeholder, value) :: table) text =
      apply table (Text.replaceAll placeholder value text) := rfl

theorem apply_print {value : String → String} :
    ∀ {table : Placeholders} {t : Layout},
      (∀ entry ∈ table, IsKey entry.1 ∧ value entry.1 = entry.2) → Awaits value table t →
        table.apply t.print = t.filled value
  | [], .last _, _, _ => rfl
  | [], .next literal key rest, _, h => absurd (h.keys key List.mem_cons_self) List.not_mem_nil
  | (key, v) :: table, t, hentries, h => by
    have hentry := hentries _ List.mem_cons_self
    have hliterals : ∀ l ∈ t.literals, '$' ∉ l.toList ∧ mark l ≠ key := by
      intro l hl
      obtain ⟨hfree, hmark⟩ := h.spans l (t.literals_subset_spans value hl)
      exact ⟨hfree, fun he => hmark (he ▸ List.mem_cons_self)⟩
    have hkeys : ∀ k ∈ t.keys, IsKey k := by
      intro k hk
      obtain ⟨entry, hmem, rfl⟩ := List.mem_map.1 (h.keys k hk)
      exact (hentries entry hmem).1
    rw [apply_cons, replaceAll_print hentry.1 v hliterals hkeys,
      apply_print (fun entry he => hentries entry (List.mem_cons_of_mem _ he)) (h.fill hentry.2),
      Layout.filled_fill hentry.2]

/-- Let the keys of a table be different names between dollar signs, and its values without dollar
signs. In a text of such keys and of literals without dollar signs, no span of which is the name of
a key, the table fills in all keys at once, and so does the table in any other order. -/
theorem apply_fills_at_once {table : Placeholders} {t : Layout}
    (hdistinct : (Assoc.names table).Nodup) (hkeys : ∀ entry ∈ table, IsKey entry.1)
    (hvalues : ∀ entry ∈ table, '$' ∉ entry.2.toList)
    (hliterals : ∀ l ∈ t.literals, '$' ∉ l.toList) (hnames : ∀ k ∈ t.keys, k ∈ Assoc.names table)
    (hspans : ∀ s ∈ t.spans table.value, mark s ∉ Assoc.names table) :
    table.apply t.print = t.filled table.value ∧
      ∀ order : Placeholders, order.Perm table → order.apply t.print = t.filled table.value := by
  have hvalue : ∀ entry ∈ table, table.value entry.1 = entry.2 := by
    intro entry he
    rw [value, Assoc.get?_of_mem hdistinct he, Option.getD_some]
  have hfree : ∀ s ∈ t.spans table.value, '$' ∉ s.toList := by
    refine (Layout.notMem_of_mem_spans hliterals fun k hk => ?_).2
    obtain ⟨entry, he, rfl⟩ := List.mem_map.1 (hnames k hk)
    rw [hvalue entry he]
    exact hvalues entry he
  have happly : ∀ order : Placeholders, order.Perm table →
      order.apply t.print = t.filled table.value := by
    intro order hperm
    have hmem : ∀ name, name ∈ Assoc.names order ↔ name ∈ Assoc.names table := fun name =>
      (hperm.map Prod.fst).mem_iff
    refine apply_print (fun entry he => ?_) ⟨fun k hk => ?_, fun s hs => ?_⟩
    · have he := hperm.mem_iff.1 he
      exact ⟨hkeys entry he, hvalue entry he⟩
    · exact (hmem k).2 (hnames k hk)
    · exact ⟨hfree s hs, fun h => hspans s hs ((hmem _).1 h)⟩
  exact ⟨happly table (.refl _), happly⟩

/-- Keys with nothing between them, and keys with a literal between them. -/
def neighbours : Layout := .next "p" "$a$" (.next "" "$b$" (.next "c" "$a$" (.last "q")))

/-- The value of one key is the name of another. -/
def neighbourTable : Placeholders := [("$a$", "b"), ("$b$", ""), ("$ab$", "x")]

theorem apply_fills_at_once_neighbours :
    neighbours.print = "p$a$$b$c$a$q" ∧
    neighbourTable.apply "p$a$$b$c$a$q" = "pbcbq" ∧
    apply [("$ab$", "x"), ("$b$", ""), ("$a$", "b")] "p$a$$b$c$a$q" = "pbcbq" := by
  have hkeys : ∀ entry ∈ neighbourTable, IsKey entry.1 := by
    simp only [neighbourTable, List.forall_mem_cons]
    exact ⟨⟨"a", by decide, rfl⟩, ⟨"b", by decide, rfl⟩, ⟨"ab", by decide, rfl⟩, nofun⟩
  obtain ⟨htable, horder⟩ := @apply_fills_at_once neighbourTable neighbours (by decide) hkeys
    (by decide) (by decide) (by decide) (by decide)
  have hreverse : [("$ab$", "x"), ("$b$", ""), ("$a$", "b")].Perm neighbourTable :=
    List.reverse_perm neighbourTable
  exact ⟨rfl, htable, horder _ hreverse⟩

end Placeholders

end SkillCompiler
