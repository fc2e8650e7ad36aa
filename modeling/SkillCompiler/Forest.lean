/-!
# Ordered forests

A forest is a list of labelled trees, given by its first tree (the label and what is below it) and
the trees after that one. Recursion on a forest is plain structural recursion, and so is a proof
about one.
-/

namespace SkillCompiler

/-- An ordered forest with labels in `α`. -/
inductive Forest (α : Type) where
  | nil
  | node (label : α) (below after : Forest α)
  deriving DecidableEq, Repr

namespace Forest

variable {α β : Type}

instance : Inhabited (Forest α) := ⟨nil⟩

/-- A tree without children. -/
def leaf (label : α) : Forest α := node label nil nil

/-- The number of nodes. -/
def size : Forest α → Nat
  | nil => 0
  | node _ below after => below.size + 1 + after.size

def isEmpty : Forest α → Bool
  | nil => true
  | node .. => false

/-- The trees of the first forest, then those of the second. -/
def append : Forest α → Forest α → Forest α
  | nil, g => g
  | node a below after, g => node a below (after.append g)

instance : Append (Forest α) := ⟨append⟩

@[simp] theorem nil_append (f : Forest α) : nil ++ f = f := rfl

@[simp] theorem node_append (a : α) (b f g : Forest α) :
    node a b f ++ g = node a b (f ++ g) := rfl

@[simp] theorem append_nil (f : Forest α) : f ++ nil = f := by
  induction f with
  | nil => rfl
  | node a b f _ ih => simp [ih]

theorem append_assoc (f g h : Forest α) : f ++ g ++ h = f ++ (g ++ h) := by
  induction f with
  | nil => rfl
  | node a b f _ ih => simp [ih]

@[simp] theorem size_nil : (nil : Forest α).size = 0 := rfl

@[simp] theorem size_node (a : α) (b f : Forest α) :
    (node a b f).size = b.size + 1 + f.size := rfl

@[simp] theorem size_append (f g : Forest α) : (f ++ g).size = f.size + g.size := by
  induction f with
  | nil => simp
  | node a b f _ ih => simp [ih]; omega

/-- The labels, each before those below it, trees in order. -/
def preorder : Forest α → List α
  | nil => []
  | node a below after => a :: below.preorder ++ after.preorder

@[simp] theorem preorder_append (f g : Forest α) :
    (f ++ g).preorder = f.preorder ++ g.preorder := by
  induction f with
  | nil => rfl
  | node a b f _ ih => simp [preorder, ih]

theorem length_preorder (f : Forest α) : f.preorder.length = f.size := by
  induction f with
  | nil => rfl
  | node a b f ihb ihf => simp [preorder, ihb, ihf]; omega

end Forest

end SkillCompiler
