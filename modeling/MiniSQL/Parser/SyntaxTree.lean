import MiniSQL.Record.Schema
import Mathlib.Data.Finset.Card

/-!
# SyntaxTree — syntax nodes, on the heap and as trees

`parser/syntax_tree.h` and `parser/syntax_tree.c`.  A node has a pointer to its first child and one
to its next sibling, and children and siblings are added by walking to the end of a list.  `Holds`
says that the nodes behind a pointer are a tree, with the addresses they take; no address is taken
twice, which is what keeps a node from being reached in two ways (`Holds.follow_inj`).

Numbers and positions of nodes serve messages only and are left out.
-/

namespace MiniSQL

open Lib

/-! ## Nodes -/

inductive SyntaxNodeType
  | kNodeUnknown
  | kNodeQuit
  | kNodeExecFile
  | kNodeIdentifier
  | kNodeNumber
  | kNodeString
  | kNodeNull
  | kNodeCreateDB
  | kNodeDropDB
  | kNodeShowDB
  | kNodeUseDB
  | kNodeShowTables
  | kNodeCreateTable
  | kNodeDropTable
  | kNodeShowIndexes
  | kNodeInsert
  | kNodeDelete
  | kNodeUpdate
  | kNodeSelect
  | kNodeConditions
  | kNodeConnector
  | kNodeCompareOperator
  | kNodeColumnType
  | kNodeColumnDefinition
  | kNodeColumnDefinitionList
  | kNodeColumnList
  | kNodeColumnValues
  | kNodeUpdateValues
  | kNodeUpdateValue
  | kNodeAllColumns
  | kNodeCreateIndex
  | kNodeDropIndex
  | kNodeIndexType
  | kNodeTrxBegin
  | kNodeTrxCommit
  | kNodeTrxRollback
  deriving DecidableEq, Repr

/-- The text of a node: a C string, which has no zero byte inside. -/
abbrev CStr := { str : Str // (0 : UInt8) ∉ str.val }

/-- `pSyntaxNode`: a null pointer or a node with its first child and its next sibling. -/
inductive SyntaxNode
  | nullptr
  | node (type : SyntaxNodeType) (val : Option CStr) (child next : SyntaxNode)

/-- The siblings of the second behind those of the first. -/
def SyntaxNode.append : SyntaxNode → SyntaxNode → SyntaxNode
  | .nullptr, t => t
  | .node type val child next, t => .node type val child (next.append t)

/-- The bytes of a literal of the program. -/
def ascii (text : String) : List UInt8 :=
  text.toList.map fun c => UInt8.ofNat c.toNat

namespace Parser

/-- `struct SyntaxNode`. -/
structure Node where
  type : SyntaxNodeType
  val : Option CStr
  child : Option Nat
  next : Option Nat

/-- The nodes allocated so far; every allocation takes a new address. -/
structure Heap where
  count : Nat
  nodes : Nat → Node

namespace Heap

def setChild (h : Heap) (p child : Nat) : Heap :=
  { h with nodes := Function.update h.nodes p { h.nodes p with child := some child } }

def setNext (h : Heap) (p next : Nat) : Heap :=
  { h with nodes := Function.update h.nodes p { h.nodes p with next := some next } }

/-- The loop `while (p->next_ != NULL) p = p->next_`, for at most `fuel` steps. -/
def last (h : Heap) : Nat → Nat → Nat
  | 0, p => p
  | fuel + 1, p =>
    match (h.nodes p).next with
    | none => p
    | some q => h.last fuel q

end Heap

/-- The text of a string literal between its quotes. -/
def unquote (val : CStr) : CStr :=
  ⟨⟨val.val.val.tail.dropLast, by
    have hlen := val.val.property
    rw [List.length_dropLast, List.length_tail]
    omega⟩, fun hmem =>
      val.property (List.mem_of_mem_tail (List.mem_of_mem_dropLast hmem))⟩

/-- `CreateSyntaxNode`; the node gets a copy of the text. -/
def createSyntaxNode (type : SyntaxNodeType) (val : Option CStr) : StateM Heap Nat := fun h =>
  let copy := if type = .kNodeString then val.map unquote else val
  (h.count, ⟨h.count + 1, Function.update h.nodes h.count ⟨type, copy, none, none⟩⟩)

/-- `SyntaxNodeAddChildren`.  A list has no more nodes than there are. -/
def syntaxNodeAddChildren (parent child : Nat) : StateM Heap Unit := fun h =>
  match (h.nodes parent).child with
  | none => ((), h.setChild parent child)
  | some p => ((), h.setNext (h.last h.count p) child)

/-- `SyntaxNodeAddSibling`; the actions of the grammar never pass a null pointer. -/
def syntaxNodeAddSibling (node sib : Nat) : StateM Heap Unit := fun h =>
  match (h.nodes node).next with
  | none => ((), h.setNext node sib)
  | some p => ((), h.setNext (h.last h.count p) sib)

/-! ## Trees on the heap -/

/-- The nodes behind the pointer are the tree and take the addresses `s`. -/
inductive Holds (h : Heap) : SyntaxNode → Option Nat → Finset Nat → Prop
  | nullptr : Holds h .nullptr none ∅
  | node {type : SyntaxNodeType} {val : Option CStr} {child next : SyntaxNode} {a : Nat}
      {pc pn : Option Nat} {sc sn : Finset Nat} : h.nodes a = ⟨type, val, pc, pn⟩ →
      Holds h child pc sc → Holds h next pn sn → a ∉ sc → a ∉ sn → Disjoint sc sn →
      Holds h (.node type val child next) (some a) (insert a (sc ∪ sn))

/-- Which of the two pointers of a node to follow. -/
inductive Link
  | child
  | next

/-- Where a path leads. -/
def Heap.follow (h : Heap) : Option Nat → List Link → Option Nat
  | p, [] => p
  | none, _ :: _ => none
  | some a, .child :: path => h.follow (h.nodes a).child path
  | some a, .next :: path => h.follow (h.nodes a).next path

/-- Reading a tree back, for at most `fuel` nodes in depth. -/
def Heap.read (h : Heap) : Nat → Option Nat → SyntaxNode
  | _, none => .nullptr
  | 0, some _ => .nullptr
  | fuel + 1, some a =>
    .node (h.nodes a).type (h.nodes a).val (h.read fuel (h.nodes a).child)
      (h.read fuel (h.nodes a).next)

variable {h h' : Heap} {t t' : SyntaxNode} {p : Option Nat} {a b q fuel : Nat}
  {s s' : Finset Nat}

/-- Only the nodes of the tree matter. -/
theorem Holds.congr (hold : Holds h t p s) (hsame : ∀ a ∈ s, h'.nodes a = h.nodes a) :
    Holds h' t p s := by
  induction hold with
  | nullptr =>
      exact .nullptr
  | node hnode _ _ hc hn hdisj ihc ihn =>
      refine .node ?_ (ihc fun b hb => hsame b ?_) (ihn fun b hb => hsame b ?_) hc hn hdisj
      · rw [hsame _ (Finset.mem_insert_self _ _), hnode]
      · exact Finset.mem_insert_of_mem (Finset.mem_union_left _ hb)
      · exact Finset.mem_insert_of_mem (Finset.mem_union_right _ hb)

theorem Holds.ne_nullptr (hold : Holds h t (some a) s) : a ∈ s := by
  cases hold
  exact Finset.mem_insert_self _ _

theorem Holds.read (hold : Holds h t p s) (hfuel : s.card ≤ fuel) : h.read fuel p = t := by
  induction hold generalizing fuel with
  | nullptr =>
      cases fuel <;> rfl
  | @node type val child next a pc pn sc sn hnode _ _ hc hn hdisj ihc ihn =>
      have hcard : (insert a (sc ∪ sn)).card = sc.card + sn.card + 1 := by
        rw [Finset.card_insert_of_notMem (by simp [hc, hn]), Finset.card_union_of_disjoint hdisj]
      rw [hcard] at hfuel
      obtain ⟨k, rfl⟩ : ∃ k, fuel = k + 1 := ⟨fuel - 1, by omega⟩
      rw [Heap.read, hnode, ihc (by omega), ihn (by omega)]

/-- A path stays among the addresses of the tree. -/
theorem Holds.follow_mem (hold : Holds h t p s) {path : List Link}
    (hpath : h.follow p path = some q) : q ∈ s := by
  induction hold generalizing path with
  | nullptr =>
      cases path with
      | nil =>
          cases hpath
      | cons link path =>
          cases hpath
  | node hnode _ _ _ _ _ ihc ihn =>
      cases path with
      | nil =>
          cases hpath
          exact Finset.mem_insert_self _ _
      | cons link path =>
          cases link with
          | child =>
              rw [Heap.follow, hnode] at hpath
              exact Finset.mem_insert_of_mem (Finset.mem_union_left _ (ihc hpath))
          | next =>
              rw [Heap.follow, hnode] at hpath
              exact Finset.mem_insert_of_mem (Finset.mem_union_right _ (ihn hpath))

/-- No path leads from a node back to it. -/
theorem Holds.follow_ne_self (hold : Holds h t (some a) s) (link : Link) (path : List Link) :
    h.follow (some a) (link :: path) ≠ some a := by
  intro hpath
  cases hold with
  | node hnode hchild hnext hc hn _ =>
      cases link with
      | child =>
          rw [Heap.follow, hnode] at hpath
          exact hc (hchild.follow_mem hpath)
      | next =>
          rw [Heap.follow, hnode] at hpath
          exact hn (hnext.follow_mem hpath)

/-- No node is reached along two paths. -/
theorem Holds.follow_inj (hold : Holds h t p s) {path path' : List Link}
    (hpath : h.follow p path = some q) (hpath' : h.follow p path' = some q) : path = path' := by
  induction hold generalizing path path' with
  | nullptr =>
      cases path with
      | nil =>
          cases hpath
      | cons link path =>
          cases hpath
  | @node type val child next a pc pn sc sn hnode hchild hnext hc hn hdisj ihc ihn =>
      have hold := Holds.node hnode hchild hnext hc hn hdisj
      cases path with
      | nil =>
          cases hpath
          cases path' with
          | nil =>
              rfl
          | cons link path' =>
              exact absurd hpath' (hold.follow_ne_self link path')
      | cons link path =>
          cases path' with
          | nil =>
              cases hpath'
              exact absurd hpath (hold.follow_ne_self link path)
          | cons link' path' =>
              -- Children and siblings do not share a node.
              cases link with
              | child =>
                  rw [Heap.follow, hnode] at hpath
                  cases link' with
                  | child =>
                      rw [Heap.follow, hnode] at hpath'
                      rw [ihc hpath hpath']
                  | next =>
                      rw [Heap.follow, hnode] at hpath'
                      exact absurd (hnext.follow_mem hpath')
                        (Finset.disjoint_left.mp hdisj (hchild.follow_mem hpath))
              | next =>
                  rw [Heap.follow, hnode] at hpath
                  cases link' with
                  | child =>
                      rw [Heap.follow, hnode] at hpath'
                      exact absurd (hnext.follow_mem hpath)
                        (Finset.disjoint_left.mp hdisj (hchild.follow_mem hpath'))
                  | next =>
                      rw [Heap.follow, hnode] at hpath'
                      rw [ihn hpath hpath']

/-! ## Adding nodes at the end of a list -/

theorem setNext_self (h : Heap) (a b : Nat) :
    (h.setNext a b).nodes a = { h.nodes a with next := some b } :=
  Function.update_self ..

theorem setChild_self (h : Heap) (a b : Nat) :
    (h.setChild a b).nodes a = { h.nodes a with child := some b } :=
  Function.update_self ..

theorem setNext_of_ne (hne : a ≠ q) : (h.setNext q b).nodes a = h.nodes a :=
  Function.update_of_ne hne ..

theorem setChild_of_ne (hne : a ≠ q) : (h.setChild q b).nodes a = h.nodes a :=
  Function.update_of_ne hne ..

/-- The loop over the siblings ends at one of the nodes of the list. -/
theorem Holds.last_mem (hold : Holds h t (some a) s) (fuel : Nat) : h.last fuel a ∈ s := by
  induction fuel generalizing t a s with
  | zero =>
      exact hold.ne_nullptr
  | succ fuel ih =>
      cases hold with
      | @node _ _ _ _ _ pc pn sc sn hnode hchild hnext _ _ _ =>
          rw [Heap.last, hnode]
          cases pn with
          | none =>
              exact Finset.mem_insert_self _ _
          | some q =>
              exact Finset.mem_insert_of_mem (Finset.mem_union_right _ (ih hnext))

/-- A node without siblings gets those of another list. -/
theorem Holds.link {type : SyntaxNodeType} {val : Option CStr} {child : SyntaxNode}
    {pc : Option Nat} {sc : Finset Nat} (hnode : h.nodes a = ⟨type, val, pc, none⟩)
    (hchild : Holds h child pc sc) (hold' : Holds h t' (some b) s') (hc : a ∉ sc) (ha : a ∉ s')
    (hdisj : Disjoint sc s') :
    Holds (h.setNext a b) (.node type val child t') (some a) (insert a (sc ∪ s')) := by
  have hother : ∀ c, c ≠ a → (h.setNext a b).nodes c = h.nodes c := fun c hne => setNext_of_ne hne
  refine .node ?_ (hchild.congr fun c hmem => hother c ?_) (hold'.congr fun c hmem => hother c ?_)
    hc ha hdisj
  · rw [setNext_self, hnode]
  · exact fun heq => hc (heq ▸ hmem)
  · exact fun heq => ha (heq ▸ hmem)

/-- The end of the list is linked to another list. -/
theorem Holds.append (hold : Holds h t (some a) s) (hold' : Holds h t' (some b) s')
    (hdisj : Disjoint s s') (hfuel : s.card ≤ fuel + 1) :
    Holds (h.setNext (h.last fuel a) b) (t.append t') (some a) (s ∪ s') := by
  induction fuel generalizing t a s with
  | zero =>
      cases hold with
      | @node type val child next _ pc pn sc sn hnode hchild hnext hc hn hcn =>
          rw [Finset.disjoint_insert_left, Finset.disjoint_union_left] at hdisj
          cases hnext with
          | nullptr =>
              rw [Finset.union_empty, Finset.insert_union]
              exact Holds.link hnode hchild hold' hc hdisj.1 hdisj.2.1
          | @node _ _ _ _ c _ _ sc' sn' hnode' =>
              -- Two nodes are more than the fuel allows.
              have hnot : a ∉ sc ∪ insert c (sc' ∪ sn') := by
                rw [Finset.mem_union, not_or]
                exact ⟨hc, hn⟩
              have hmem : c ∈ sc ∪ insert c (sc' ∪ sn') := by simp
              have hpos := Finset.card_pos.mpr ⟨c, hmem⟩
              rw [Finset.card_insert_of_notMem hnot] at hfuel
              omega
  | succ fuel ih =>
      cases hold with
      | @node type val child next _ pc pn sc sn hnode hchild hnext hc hn hcn =>
          rw [Finset.disjoint_insert_left, Finset.disjoint_union_left] at hdisj
          rw [Heap.last, hnode]
          cases pn with
          | none =>
              cases hnext
              rw [Finset.union_empty, Finset.insert_union]
              exact Holds.link hnode hchild hold' hc hdisj.1 hdisj.2.1
          | some q =>
              have hcard : sn.card ≤ fuel + 1 := by
                rw [Finset.card_insert_of_notMem (by simp [hc, hn]),
                  Finset.card_union_of_disjoint hcn] at hfuel
                omega
              have hlast := hnext.last_mem fuel
              have hsub := ih hnext hdisj.2.2 hcard
              rw [Finset.insert_union, Finset.union_assoc]
              refine .node ?_ (hchild.congr fun c hmem => setNext_of_ne ?_) hsub hc ?_ ?_
              · have hne : a ≠ h.last fuel q := fun heq => hn (heq ▸ hlast)
                rw [setNext_of_ne hne, hnode]
              · exact fun heq => Finset.disjoint_left.mp hcn hmem (heq ▸ hlast)
              · simp [hn, hdisj.1]
              · exact Finset.disjoint_union_right.mpr ⟨hcn, hdisj.2.1⟩

/-! ## The values of the parser

The actions of the grammar work on pointers to trees that do not share a node.  `Triple` states what
an action does to them; it leaves the nodes that were there before alone, so it can be used among
other values (`Builds.triple`). -/

/-- Pointers with the trees behind them, which take the addresses `s`. -/
def Owns (h : Heap) : List (Nat × SyntaxNode) → Finset Nat → Prop
  | [], s => s = ∅
  | v :: vs, s => ∃ s₁ s₂, Holds h v.2 (some v.1) s₁ ∧ Owns h vs s₂ ∧ Disjoint s₁ s₂ ∧
    s = s₁ ∪ s₂

variable {v : Nat × SyntaxNode} {vs vs' : List (Nat × SyntaxNode)} {base : Heap} {α β : Type}

theorem Owns.congr (hown : Owns h vs s) (hsame : ∀ a ∈ s, h'.nodes a = h.nodes a) :
    Owns h' vs s := by
  induction vs generalizing s with
  | nil =>
      exact hown
  | cons v vs ih =>
      rcases hown with ⟨s₁, s₂, hold, hrest, hdisj, rfl⟩
      refine ⟨s₁, s₂, hold.congr fun a ha => hsame a ?_, ih hrest fun a ha => hsame a ?_, hdisj,
        rfl⟩
      · exact Finset.mem_union_left _ ha
      · exact Finset.mem_union_right _ ha

theorem Owns.perm (hperm : vs.Perm vs') (hown : Owns h vs s) : Owns h vs' s := by
  induction hperm generalizing s with
  | nil =>
      exact hown
  | cons v _ ih =>
      rcases hown with ⟨s₁, s₂, hold, hrest, hdisj, rfl⟩
      exact ⟨s₁, s₂, hold, ih hrest, hdisj, rfl⟩
  | swap v w vs =>
      rcases hown with ⟨s₁, _, hold, ⟨s₂, s₃, hold', hrest, hdisj', rfl⟩, hdisj, rfl⟩
      rw [Finset.disjoint_union_right] at hdisj
      refine ⟨s₂, s₁ ∪ s₃, hold', ⟨s₁, s₃, hold, hrest, hdisj.2, rfl⟩, ?_, ?_⟩
      · exact Finset.disjoint_union_right.mpr ⟨hdisj.1.symm, hdisj'⟩
      · rw [← Finset.union_assoc, ← Finset.union_assoc, Finset.union_comm s₁]
  | trans _ _ ih₁ ih₂ =>
      exact ih₂ (ih₁ hown)

/-- From the heap `base` on, new nodes were allocated that are these values. -/
structure Reached (base h : Heap) (vs : List (Nat × SyntaxNode)) : Prop where
  count_le : base.count ≤ h.count
  frame : ∀ a, a < base.count → h.nodes a = base.nodes a
  owns : ∃ s, Owns h vs s ∧ ∀ a ∈ s, base.count ≤ a ∧ a < h.count

theorem Reached.refl (h : Heap) : Reached h h [] :=
  ⟨le_refl _, fun _ _ => rfl, ∅, rfl, fun a ha => absurd ha (Finset.notMem_empty a)⟩

theorem Reached.perm (hr : Reached base h vs) (hperm : vs.Perm vs') : Reached base h vs' := by
  rcases hr.owns with ⟨s, hown, hs⟩
  exact ⟨hr.count_le, hr.frame, s, hown.perm hperm, hs⟩

/-- What is built on top of the heap reached comes to the values there. -/
theorem Reached.push {w : Nat × SyntaxNode} (hr : Reached base h vs) (hw : Reached h h' [w]) :
    Reached base h' (w :: vs) := by
  rcases hr.owns with ⟨s, hown, hs⟩
  rcases hw.owns with ⟨_, ⟨s₁, _, hold, rfl, _, rfl⟩, hs₁⟩
  rw [Finset.union_empty] at hs₁
  have hle := hr.count_le
  have hle' := hw.count_le
  refine ⟨hle.trans hle', fun a ha => ?_, s₁ ∪ s, ⟨s₁, s, hold, ?_, ?_, rfl⟩, fun a ha => ?_⟩
  · rw [hw.frame a (by omega), hr.frame a ha]
  · exact hown.congr fun a ha => hw.frame a (hs a ha).2
  · refine Finset.disjoint_left.mpr fun a ha ha' => ?_
    have h1 := (hs₁ a ha).1
    have h2 := (hs a ha').2
    omega
  · rcases Finset.mem_union.mp ha with ha | ha
    · have := hs₁ a ha
      omega
    · have := hs a ha
      omega

/-- The action turns values `vs` into the values `post`. -/
def Triple (vs : List (Nat × SyntaxNode)) (act : StateM Heap α)
    (post : α → List (Nat × SyntaxNode)) : Prop :=
  ∀ base h, Reached base h vs → Reached base (act h).2 (post (act h).1)

/-- The action builds the tree. -/
def Builds (act : StateM Heap Nat) (t : SyntaxNode) : Prop :=
  Triple [] act fun p => [(p, t)]

theorem Triple.pure {post : α → List (Nat × SyntaxNode)} (a : α) (hperm : vs.Perm (post a)) :
    Triple vs (Pure.pure a) post :=
  fun _ _ hr => hr.perm hperm

theorem Triple.bind {x : StateM Heap α} {f : α → StateM Heap β}
    {mid : α → List (Nat × SyntaxNode)} {post : β → List (Nat × SyntaxNode)}
    (hx : Triple vs x mid) (hf : ∀ a, Triple (mid a) (f a) post) : Triple vs (x >>= f) post :=
  fun base h hr => hf (x h).1 base (x h).2 (hx base h hr)

/-- An action that builds a tree, among other values. -/
theorem Builds.triple {act : StateM Heap Nat} (hact : Builds act t)
    (vs : List (Nat × SyntaxNode)) : Triple vs act fun p => (p, t) :: vs :=
  fun _ h hr => hr.push (hact h h (Reached.refl h))

theorem builds_createSyntaxNode (type : SyntaxNodeType) (val : Option CStr) :
    Builds (createSyntaxNode type val)
      (.node type (if type = .kNodeString then val.map unquote else val) .nullptr .nullptr) := by
  intro base h hr
  have hle := hr.count_le
  refine ⟨Nat.le_succ_of_le hle, fun a ha => ?_, {h.count}, ⟨{h.count}, ∅, ?_, rfl, ?_, ?_⟩, ?_⟩
  · rw [← hr.frame a ha]
    exact Function.update_of_ne (by omega) ..
  · have hempty : h.count ∉ (∅ : Finset Nat) := Finset.notMem_empty _
    exact Holds.node (Function.update_self ..) .nullptr .nullptr hempty hempty
      (Finset.disjoint_empty_left _)
  · exact Finset.disjoint_empty_right _
  · exact (Finset.union_empty _).symm
  · intro a ha
    rw [Finset.mem_singleton] at ha
    subst ha
    exact ⟨hle, Nat.lt_succ_self _⟩

/-- One value is linked into another. -/
theorem Reached.merge {v w : Nat × SyntaxNode} (hr : Reached base h (v :: w :: vs))
    (hcount : h'.count = h.count)
    (hlink : ∀ s₁ s₂, Holds h v.2 (some v.1) s₁ → Holds h w.2 (some w.1) s₂ → Disjoint s₁ s₂ →
      s₁.card ≤ h.count → Holds h' t (some a) (s₁ ∪ s₂) ∧
        ∃ q ∈ s₁, ∀ b, b ≠ q → h'.nodes b = h.nodes b) : Reached base h' ((a, t) :: vs) := by
  rcases hr.owns with ⟨_, ⟨s₁, _, hv, ⟨s₂, s₃, hw, hown, hdisj₂, rfl⟩, hdisj₁, rfl⟩, hs⟩
  rw [Finset.disjoint_union_right] at hdisj₁
  have hcard : s₁.card ≤ h.count := by
    have hsub : s₁ ⊆ Finset.range h.count := fun b hb =>
      Finset.mem_range.mpr (hs b (Finset.mem_union_left _ hb)).2
    simpa using Finset.card_le_card hsub
  obtain ⟨hnew, q, hq, hother⟩ := hlink s₁ s₂ hv hw hdisj₁.1 hcard
  have hqbase := (hs q (Finset.mem_union_left _ hq)).1
  refine ⟨?_, fun b hb => ?_, s₁ ∪ s₂ ∪ s₃, ⟨s₁ ∪ s₂, s₃, hnew, ?_, ?_, rfl⟩, fun b hb => ?_⟩
  · rw [hcount]
    exact hr.count_le
  · rw [hother b (by omega), hr.frame b hb]
  · exact hown.congr fun b hb => hother b fun heq =>
      Finset.disjoint_left.mp hdisj₁.2 hq (heq ▸ hb)
  · exact Finset.disjoint_union_left.mpr ⟨hdisj₁.2, hdisj₂⟩
  · rw [hcount]
    rw [Finset.union_assoc] at hb
    exact hs b hb

/-- The rule of `SyntaxNodeAddChildren`. -/
theorem Triple.addChildren {parent child : Nat} {type : SyntaxNodeType} {val : Option CStr}
    {c : SyntaxNode} (hperm : vs.Perm ((parent, .node type val c .nullptr) :: (child, t) :: vs')) :
    Triple vs (syntaxNodeAddChildren parent child) fun _ =>
      (parent, .node type val (c.append t) .nullptr) :: vs' := by
  intro base h hr
  -- The child becomes the first one, or it is chained behind the last one.
  rw [syntaxNodeAddChildren]
  cases hptr : (h.nodes parent).child with
  | none =>
      refine (hr.perm hperm).merge rfl fun s₁ s₂ hparent hchild hdisj _ => ?_
      refine ⟨?_, parent, hparent.ne_nullptr, fun b hne => setChild_of_ne hne⟩
      cases hparent with
      | @node _ _ _ _ _ pc pn sc sn hnode hc hn hnotc hnotn hcn =>
          rw [hnode] at hptr
          cases hptr
          cases hc
          cases hn
          rw [Finset.disjoint_insert_left] at hdisj
          have hnew : Holds (h.setChild parent child) (.node type val t .nullptr) (some parent)
              (insert parent (s₂ ∪ ∅)) := by
            refine .node ?_ (hchild.congr fun b hb => setChild_of_ne ?_) .nullptr hdisj.1 hnotn ?_
            · rw [setChild_self, hnode]
            · exact fun heq => hdisj.1 (heq ▸ hb)
            · exact Finset.disjoint_empty_right _
          rw [Finset.insert_union, Finset.union_empty, Finset.empty_union]
          rw [Finset.union_empty] at hnew
          exact hnew
  | some q =>
      refine (hr.perm hperm).merge rfl fun s₁ s₂ hparent hchild hdisj hcard => ?_
      cases hparent with
      | @node _ _ _ _ _ pc pn sc sn hnode hc hn hnotc hnotn hcn =>
          rw [hnode] at hptr
          cases hptr
          cases hn
          rw [Finset.disjoint_insert_left, Finset.disjoint_union_left] at hdisj
          rw [Finset.union_empty] at hcard
          have hlast := hc.last_mem h.count
          have hle := (Finset.card_le_card (Finset.subset_insert parent sc)).trans hcard
          have hlist := hc.append hchild hdisj.2.1 (hle.trans (Nat.le_succ _))
          refine ⟨?_, _, Finset.mem_insert_of_mem (Finset.mem_union_left _ hlast),
            fun b hne => setNext_of_ne hne⟩
          have hnew : Holds (h.setNext (h.last h.count q) child)
              (.node type val (c.append t) .nullptr) (some parent)
              (insert parent (sc ∪ s₂ ∪ ∅)) := by
            refine .node ?_ hlist .nullptr ?_ hnotn (Finset.disjoint_empty_right _)
            · have hne : parent ≠ h.last h.count q := fun heq => hnotc (heq ▸ hlast)
              rw [setNext_of_ne hne, hnode]
            · simp [hnotc, hdisj.1]
          rw [Finset.insert_union, Finset.union_empty]
          rw [Finset.union_empty] at hnew
          exact hnew

/-- The rule of `SyntaxNodeAddSibling`. -/
theorem Triple.addSibling {node sib : Nat} {t t' : SyntaxNode}
    (hperm : vs.Perm ((node, t) :: (sib, t') :: vs')) :
    Triple vs (syntaxNodeAddSibling node sib) fun _ => (node, t.append t') :: vs' := by
  intro base h hr
  have hact : syntaxNodeAddSibling node sib h =
      ((), h.setNext (h.last (h.count + 1) node) sib) := by
    rw [syntaxNodeAddSibling, Heap.last]
    cases (h.nodes node).next with
    | none =>
        rfl
    | some q =>
        rfl
  rw [hact]
  refine (hr.perm hperm).merge rfl fun s₁ s₂ hnode hsib hdisj hcard => ⟨?_, ?_⟩
  · exact hnode.append hsib hdisj (by omega)
  · exact ⟨_, hnode.last_mem (h.count + 1), fun b hne => setNext_of_ne hne⟩

end Parser
end MiniSQL
