import SkillCompiler.Document.Parse
import SkillCompiler.Forest

/-!
# The loop that reads a document

The loop of `parse` keeps a table of nodes and a stack of places. Beside it stands a `Builder`,
which puts the same tokens together as trees: it keeps the open elements, innermost first, each with
the trees read inside it. At every moment the table is that of the tree which the builder would give
if all open elements were closed, laid out in document order, and the stack holds the last places on
the way down to its end (`Builder.arena`). One token keeps this (`arena_step`), and so do all
(`parse_eq_readTree`).
-/

namespace SkillCompiler

namespace Document

/-! ## The table of a forest -/

/-- The places of the roots of a forest laid out from `next` on. -/
def rootIds (next : NodeId) : Forest Content → List NodeId
  | .nil => []
  | .node _ below after => next :: rootIds (next + 1 + below.size) after

/-- The nodes of a forest laid out from `next` on, below `parent`. -/
def layOut (parent : Option NodeId) (next : NodeId) : Forest Content → List Node
  | .nil => []
  | .node content below after =>
    ⟨content, parent, rootIds (next + 1) below⟩ ::
      (layOut (some next) (next + 1) below ++ layOut parent (next + 1 + below.size) after)

/-- The document whose nodes are those of a forest, in document order. Its root is the first. -/
def ofForest (declaration : Option Declaration) (forest : Forest Content) : Document :=
  ⟨(layOut none 0 forest).toArray, 0, declaration⟩

theorem length_layOut : ∀ (t : Forest Content) (parent : Option NodeId) (next : NodeId),
    (layOut parent next t).length = t.size
  | .nil, _, _ => rfl
  | .node c b a, parent, next => by
    simp only [layOut, List.length_cons, List.length_append, length_layOut b, length_layOut a,
      Forest.size_node]
    omega

theorem rootIds_append : ∀ (s t : Forest Content) (next : Nat),
    rootIds next (s ++ t) = rootIds next s ++ rootIds (next + s.size) t
  | .nil, _, _ => rfl
  | .node c b a, t, next => by
    rw [Forest.node_append, rootIds, rootIds_append a, rootIds, List.cons_append, Forest.size_node,
      show next + (b.size + 1 + a.size) = next + 1 + b.size + a.size by omega]

theorem layOut_append : ∀ (s t : Forest Content) (parent : Option NodeId) (next : Nat),
    layOut parent next (s ++ t) = layOut parent next s ++ layOut parent (next + s.size) t
  | .nil, _, _, _ => rfl
  | .node c b a, t, parent, next => by
    rw [Forest.node_append, layOut, layOut_append a, layOut, List.cons_append, List.append_assoc,
      Forest.size_node, show next + (b.size + 1 + a.size) = next + 1 + b.size + a.size by omega]

/-! ## The tree built from tokens -/

/-- An element that is still open, with the trees read inside it so far. -/
structure Frame where
  tag : String
  attributes : List Attribute
  inside : Forest Content
  deriving DecidableEq, Repr

/-- The tree of a frame's element. -/
def Frame.tree (frame : Frame) : Forest Content :=
  .node (.element frame.tag frame.attributes) frame.inside .nil

/-- A frame with more trees inside. -/
def Frame.add (frame : Frame) (trees : Forest Content) : Frame :=
  { frame with inside := frame.inside ++ trees }

@[simp] theorem Frame.tag_add (frame : Frame) (trees : Forest Content) :
    (frame.add trees).tag = frame.tag := rfl

@[simp] theorem Frame.add_nil (frame : Frame) : frame.add .nil = frame := by
  rw [add, Forest.append_nil]

theorem Frame.add_add (frame : Frame) (f g : Forest Content) :
    (frame.add f).add g = frame.add (f ++ g) := by
  simp only [add, Forest.append_assoc]

/-- What has been read: the declaration, the root element once it is closed, and the open
elements. -/
structure Builder where
  declaration : Option Declaration := none
  root : Forest Content := .nil
  frames : List Frame := []
  deriving DecidableEq, Repr

namespace Builder

/-- Puts a tree inside the innermost open element, or makes it the root. -/
def add (b : Builder) (tree : Forest Content) : Builder :=
  match b.frames with
  | [] => { b with root := tree }
  | frame :: frames => { b with frames := frame.add tree :: frames }

/-- Puts in a tree unless it stands outside the root element. -/
def addInside (b : Builder) (tree : Forest Content) : Builder :=
  if b.frames.isEmpty then b else b.add tree

/-- A new element has to be the root or stand inside it. -/
def requireRoom (b : Builder) (tag : String) : Except Misplaced Unit :=
  if b.frames.isEmpty && !b.root.isEmpty then .error (.secondRoot tag) else .ok ()

/-- Takes one token. -/
def step (b : Builder) : Token → Except Misplaced Builder
  | .declaration d => .ok { b with declaration := some d }
  | .start tag attributes => do
    b.requireRoom tag
    return { b with frames := ⟨tag, attributes, .nil⟩ :: b.frames }
  | .empty tag attributes => do
    b.requireRoom tag
    return b.add (.leaf (.element tag attributes))
  | .close name =>
    match b.frames with
    | [] => .error (.close (.unmatchedClose name))
    | frame :: frames =>
      if frame.tag = name then .ok ({ b with frames := frames }.add frame.tree)
      else .error (.close (.mismatchedClose frame.tag name))
  | .text value => .ok (b.addInside (.leaf (.text value)))
  | .cdata value => .ok (b.addInside (.leaf (.cdata value)))
  | .comment value => .ok (b.addInside (.leaf (.comment value)))
  | .skipped => .ok b

/-- Closes the open elements and gives the root. -/
def close (root : Forest Content) : List Frame → Forest Content
  | [] => root
  | [frame] => frame.tree
  | frame :: outer :: frames => close root (outer.add frame.tree :: frames)
termination_by frames => frames.length

/-! ## The table of a builder -/

/-- How many nodes the open elements have, with what is inside them. -/
def spread : List Frame → Nat
  | [] => 0
  | frame :: outer => frame.inside.size + 1 + spread outer

/-- The places of the open elements. An element stands after all that its outer elements have. -/
def openIds : List Frame → List NodeId
  | [] => []
  | _ :: outer => spread outer :: openIds outer

/-- The state of the loop when the builder holds `b`. -/
def arena (b : Builder) : Arena where
  nodes := (layOut none 0 (close b.root b.frames)).toArray
  stack := openIds b.frames
  opened := b.frames.map Frame.tag
  root := if (close b.root b.frames).isEmpty then none else some 0
  declaration := b.declaration

theorem close_cons_add (root : Forest Content) (frame outer : Frame) (frames : List Frame) :
    close root (frame :: outer :: frames) = close root (outer.add frame.tree :: frames) := by
  rw [close]

theorem size_close (root : Forest Content) (frame : Frame) (outer : List Frame) :
    (close root (frame :: outer)).size = spread (frame :: outer) := by
  induction outer generalizing frame with
  | nil => simp [close, Frame.tree, spread]
  | cons o outer ih =>
    rw [close_cons_add, ih]
    simp only [spread, Frame.add, Frame.tree, Forest.size_append, Forest.size_node, Forest.size_nil]
    omega

theorem isEmpty_close_cons (root : Forest Content) (frame : Frame) (outer : List Frame) :
    (close root (frame :: outer)).isEmpty = false := by
  have hsize := size_close root frame outer
  cases hclose : close root (frame :: outer) with
  | nil =>
    rw [hclose, spread, Forest.size_nil] at hsize
    omega
  | node c b a => rfl

/-! ## Adding a node -/

/-- The tree `t` is `s` with a last node more, of content `c`, below the node at `p` in the listing
of `s`. Laid out, the new node comes last and is entered with its parent. -/
structure Grows (p : Nat) (c : Content) (s t : Forest Content) : Prop where
  size : t.size = s.size + 1
  rootIds : ∀ next : Nat, rootIds next t = rootIds next s
  layOut : ∀ (parent : Option NodeId) (next : Nat), layOut parent next t =
    (layOut parent next s ++ [(⟨c, some (next + p), []⟩ : Node)]).modify p fun n =>
      { n with children := n.children ++ [next + s.size] }

theorem modify_append_right {α : Type} (f : α → α) (l : List α) (i : Nat) :
    ∀ front : List α, (front ++ l).modify (front.length + i) f = front ++ l.modify i f
  | [] => by simp
  | a :: front => by
    rw [List.cons_append, List.length_cons, List.modify_cons, if_neg (by omega),
      show front.length + 1 + i - 1 = front.length + i by omega, modify_append_right f l i front,
      List.cons_append]

theorem grows_add_leaf (frame : Frame) (c : Content) :
    Grows 0 c frame.tree (frame.add (.leaf c)).tree where
  size := by simp [Frame.tree, Frame.add, Forest.leaf]
  rootIds next := by simp [Frame.tree, Frame.add, Document.rootIds]
  layOut parent next := by
    have hplace : next + 1 + frame.inside.size = next + (frame.inside.size + 1) := by omega
    simp [Frame.tree, Frame.add, Document.layOut, rootIds_append, layOut_append, hplace,
      Forest.leaf, Document.rootIds]

theorem Grows.inside {p : Nat} {c : Content} {s t : Forest Content} (h : Grows p c s t)
    (outer : Frame) :
    Grows (outer.inside.size + 1 + p) c (outer.add s).tree (outer.add t).tree where
  size := by
    simp only [Frame.tree, Frame.add, Forest.size_node, Forest.size_append, h.size]
    omega
  rootIds next := by simp [Frame.tree, Frame.add, Document.rootIds]
  layOut parent next := by
    let before : List Node :=
      ⟨.element outer.tag outer.attributes, parent,
        Document.rootIds (next + 1) (outer.inside ++ s)⟩ ::
        Document.layOut (some next) (next + 1) outer.inside
    have hbefore : before.length = outer.inside.size + 1 := by
      rw [List.length_cons, length_layOut]
    have hold : Document.layOut parent next (outer.add s).tree =
        before ++ Document.layOut (some next) (next + 1 + outer.inside.size) s := by
      simp [before, Frame.tree, Frame.add, Document.layOut, layOut_append]
    have hnew : Document.layOut parent next (outer.add t).tree =
        before ++ Document.layOut (some next) (next + 1 + outer.inside.size) t := by
      simp [before, Frame.tree, Frame.add, Document.layOut, layOut_append, rootIds_append,
        h.rootIds]
    have hplace : next + (outer.inside.size + 1 + p) = next + 1 + outer.inside.size + p := by omega
    have hsize : next + (outer.add s).tree.size = next + 1 + outer.inside.size + s.size := by
      simp only [Frame.tree, Frame.add, Forest.size_node, Forest.size_append, Forest.size_nil]
      omega
    rw [hnew, h.layOut, hold, List.append_assoc, ← hbefore, modify_append_right, hbefore, hplace,
      hsize]

theorem Grows.close {c : Content} (root : Forest Content) :
    ∀ (outer : List Frame) {p : Nat} {frame frame' : Frame}, Grows p c frame.tree frame'.tree →
      Grows (spread outer + p) c (Builder.close root (frame :: outer))
        (Builder.close root (frame' :: outer))
  | [], p, frame, frame', h => by
    rw [Builder.close, Builder.close, spread, Nat.zero_add]
    exact h
  | o :: outer, p, frame, frame', h => by
    have ih := Grows.close root outer (h.inside o)
    rw [close_cons_add, close_cons_add, spread]
    rwa [show o.inside.size + 1 + spread outer + p = spread outer + (o.inside.size + 1 + p) by
      omega]

/-- A leaf inside the innermost open element is pushed to the table and entered with its parent. -/
theorem layOut_close_add_leaf (root : Forest Content) (frame : Frame) (outer : List Frame)
    (c : Content) :
    (layOut none 0 (close root (frame.add (.leaf c) :: outer))).toArray =
      Arena.enter ((layOut none 0 (close root (frame :: outer))).toArray.push
        ⟨c, some (spread outer), []⟩) (spread outer) (spread (frame :: outer)) := by
  have hgrows := Grows.close root outer (grows_add_leaf frame c)
  rw [hgrows.layOut, Arena.enter, List.push_toArray, List.modify_toArray, size_close]
  simp

/-! ## One token -/

theorem size_arena_nodes (b : Builder) : b.arena.nodes.size = (close b.root b.frames).size := by
  simp [arena, length_layOut]

theorem arena_add_leaf {b : Builder} {frame : Frame} {outer : List Frame}
    (hb : b.frames = frame :: outer) (c : Content) :
    (b.add (.leaf c)).arena = { b.arena with
      nodes := Arena.enter (b.arena.nodes.push ⟨c, some (spread outer), []⟩) (spread outer)
        b.arena.nodes.size } := by
  rw [size_arena_nodes, hb, size_close]
  simp only [add, hb, arena, layOut_close_add_leaf, isEmpty_close_cons]
  rfl

theorem arena_addInside (b : Builder) (c : Content) :
    (b.addInside (.leaf c)).arena = b.arena.pushLeaf c := by
  cases hb : b.frames with
  | nil => simp [addInside, Arena.pushLeaf, arena, hb, openIds]
  | cons frame outer =>
    rw [addInside, hb, List.isEmpty_cons, if_neg Bool.false_ne_true, arena_add_leaf hb]
    simp [Arena.pushLeaf, arena, hb, openIds]

/-- A new element stands in the table like a leaf. -/
theorem arena_openElement (b : Builder) (tag : String) (as : List Attribute) :
    b.arena.openElement tag as = (b.requireRoom tag).map fun _ =>
      ((b.add (.leaf (.element tag as))).arena, b.arena.nodes.size) := by
  cases hb : b.frames with
  | nil =>
    cases hr : b.root with
    | nil =>
      simp [Arena.openElement, requireRoom, add, arena, hb, hr, openIds, close, Forest.isEmpty,
        layOut, rootIds, Forest.leaf, Except.map]
    | node c s t => simp [Arena.openElement, requireRoom, arena, hb, hr, openIds, close,
        Forest.isEmpty, Except.map]
  | cons frame outer =>
    rw [arena_add_leaf hb]
    simp [Arena.openElement, requireRoom, arena, hb, openIds, Except.map]

/-- An element that has been opened is an element without content that stays open. -/
theorem arena_open (b : Builder) (tag : String) (as : List Attribute)
    (hroom : b.frames = [] → b.root = .nil) :
    ({ b with frames := ⟨tag, as, .nil⟩ :: b.frames } : Builder).arena =
      { (b.add (.leaf (.element tag as))).arena with
        stack := b.arena.nodes.size :: b.arena.stack
        opened := tag :: b.arena.opened } := by
  rw [size_arena_nodes]
  cases hb : b.frames with
  | nil =>
    simp [add, arena, hb, hroom hb, openIds, spread, close, Frame.tree, Forest.isEmpty, Forest.leaf]
  | cons frame outer =>
    have hclose : close b.root (⟨tag, as, .nil⟩ :: frame :: outer) =
        close b.root (frame.add (.leaf (.element tag as)) :: outer) := close_cons_add ..
    simp [add, arena, hb, openIds, size_close, hclose]

/-- Closing an element changes nothing in the table. -/
theorem arena_close {b : Builder} {frame : Frame} {outer : List Frame}
    (hb : b.frames = frame :: outer) :
    (({ b with frames := outer } : Builder).add frame.tree).arena =
      { b.arena with stack := b.arena.stack.tail, opened := outer.map Frame.tag } := by
  cases outer with
  | nil => simp [add, arena, hb, openIds, close]
  | cons o outer =>
    have hclose := close_cons_add b.root frame o outer
    simp only [add, arena, hb, hclose, openIds, List.map_cons, List.tail_cons]
    rfl

/-- The loop takes a token as the builder does. -/
theorem arena_step (b : Builder) (t : Token) : b.arena.step t = (b.step t).map arena := by
  cases t with
  | declaration d => rfl
  | start tag as =>
    rw [Arena.step, arena_openElement, step]
    cases hr : b.requireRoom tag with
    | error m => rfl
    | ok u =>
      have hroom : b.frames = [] → b.root = .nil := by
        intro hb
        cases hroot : b.root with
        | nil => rfl
        | node c s t => simp [requireRoom, hb, hroot, Forest.isEmpty] at hr
      refine congrArg Except.ok ?_
      rw [arena_open b tag as hroom]
      cases hb : b.frames <;> simp [add, hb, arena, openIds]
  | empty tag as =>
    rw [Arena.step, arena_openElement, step]
    cases b.requireRoom tag <;> rfl
  | close name =>
    cases hb : b.frames with
    | nil => simp [Arena.step, step, arena, hb, Except.map]
    | cons frame outer =>
      have hopened : b.arena.opened = frame.tag :: outer.map Frame.tag := by simp [arena, hb]
      simp only [Arena.step, step, hopened, hb]
      split
      · exact congrArg Except.ok (arena_close hb).symm
      · rfl
  | text value => exact congrArg Except.ok (b.arena_addInside _).symm
  | cdata value => exact congrArg Except.ok (b.arena_addInside _).symm
  | comment value => exact congrArg Except.ok (b.arena_addInside _).symm
  | skipped => rfl

/-- Takes the token of a lexeme; one that is misplaced is an error at its position. -/
def take (position : List Char → Nat) (b : Builder) (lexeme : Markup.Lexeme) :
    Except DocumentError Builder :=
  (b.step lexeme.token).mapError fun m => m.error (position lexeme.before)

/-- The tree that has been read, once the text has ended. -/
def tree (b : Builder) : Except DocumentError (Option Declaration × Forest Content) :=
  match close b.root b.frames with
  | .nil => .error .noRoot
  | root => .ok (b.declaration, root)

theorem arena_foldlM (position : List Char → Nat) :
    ∀ (lexemes : List Markup.Lexeme) (b : Builder),
      lexemes.foldlM (Arena.take position) b.arena = (lexemes.foldlM (take position) b).map arena
  | [], b => rfl
  | lexeme :: lexemes, b => by
    have hfirst : Arena.take position b.arena lexeme = (b.take position lexeme).map arena := by
      rw [Arena.take, take, arena_step]
      cases b.step lexeme.token <;> rfl
    rw [List.foldlM_cons, List.foldlM_cons, hfirst]
    cases b.take position lexeme with
    | error e => rfl
    | ok b' => exact arena_foldlM position lexemes b'

theorem document_arena (b : Builder) :
    b.arena.document = b.tree.map fun read => ofForest read.1 read.2 := by
  unfold tree
  cases hclose : close b.root b.frames <;>
    simp [Arena.document, arena, hclose, Forest.isEmpty, ofForest, Except.map]

end Builder

/-- Reads a document as its declaration and its tree. -/
def readTree (source : String) : Except DocumentError (Option Declaration × Forest Content) := do
  let text := unmarked source
  let position (rest : List Char) : Nat := Text.width text - Text.width rest
  let scan := Markup.scan text
  let built ← scan.lexemes.foldlM (Builder.take position) {}
  match scan.fault with
  | some (fault, rest) => .error (.malformed (position rest) fault)
  | none => built.tree

/-- The table that is read is the tree that is read, laid out in document order. -/
theorem parse_eq_readTree (source : String) :
    parse source = (readTree source).map fun read => ofForest read.1 read.2 := by
  have hstart : ({} : Arena) = Builder.arena {} := by
    simp [Builder.arena, Builder.close, layOut, Builder.openIds, Forest.isEmpty]
  unfold parse readTree
  dsimp only
  rw [hstart, Builder.arena_foldlM]
  rcases (Markup.scan (unmarked source)).lexemes.foldlM (Builder.take _) ({} : Builder) with
    e | built
  · rfl
  · rcases (Markup.scan (unmarked source)).fault with _ | fault
    · exact built.document_arena
    · rfl

end Document

end SkillCompiler
