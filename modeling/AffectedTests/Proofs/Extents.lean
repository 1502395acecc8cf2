import AffectedTests.Proofs.Widening
import AffectedTests.Tree.Rows
/-!
# Where nodes stand

A node stands at some bytes of the source, on the rows of these bytes, and in the tree under an address:
the way to it from the root, child by child. The addresses tell nodes apart that look alike, their
beginnings are the addresses of the nodes around a node, and the preorder lists them in order.

- `SourceFile.Placed.nestsRows`: nodes that are nested by their bytes are nested by their rows.
- `Tree.map_at?_addresses`: the preorder is the list of the nodes at the addresses.
- `Tree.mem_addresses_iff`, `Tree.pairwise_addresses`: which addresses there are, and their order.
-/

namespace AffectedTests

open Cursor (Within)

/-! ## Bytes and rows -/

/-- What every grammar guarantees of the places in a tree: a node does not end before it begins, it lies
within the bytes of the node around it, and its rows count the line feeds before its ends. -/
structure SourceFile.Placed (f : SourceFile) : Prop where
  ordered : ∀ c, Within f.tree c → c.info.startByte ≤ c.info.endByte
  nested : ∀ c, Within f.tree c → ∀ t ∈ c.tree.children,
    c.info.startByte ≤ t.info.startByte ∧ t.info.endByte ≤ c.info.endByte
  rows : ∀ c, Within f.tree c → c.info.startRow = Tree.rowAt f.source c.info.startByte ∧
    c.info.endRow = Tree.rowAt f.source c.info.endByte

/-- A later place is on the same row or on a later one. -/
theorem Tree.rowAt_mono (source : Bytes) {first last : Nat} (h : first ≤ last) :
    rowAt source first ≤ rowAt source last := by
  have hpart : source.take first <+: source.take last := List.take_prefix_take_left h
  exact hpart.sublist.count_le _

namespace SourceFile.Placed

variable {f : SourceFile} {c : Cursor}

theorem startRow_le_endRow (h : f.Placed) (hc : Within f.tree c) : c.info.startRow ≤ c.info.endRow := by
  rw [(h.rows c hc).1, (h.rows c hc).2]
  exact Tree.rowAt_mono f.source (h.ordered c hc)

/-- Nodes that are nested by their bytes are nested by their rows. -/
theorem nestsRows (h : f.Placed) : f.tree.NestsRows := by
  intro c hc t ht
  have hbytes := h.nested c hc t ht
  have hrows := h.rows _ (hc.child ht)
  constructor
  · calc
      c.info.startRow = Tree.rowAt f.source c.info.startByte := (h.rows c hc).1
      _ ≤ Tree.rowAt f.source t.info.startByte := Tree.rowAt_mono f.source hbytes.1
      _ = t.info.startRow := hrows.1.symm
  · calc
      t.info.endRow = Tree.rowAt f.source t.info.endByte := hrows.2
      _ ≤ Tree.rowAt f.source c.info.endByte := Tree.rowAt_mono f.source hbytes.2
      _ = c.info.endRow := (h.rows c hc).2.symm

/-- The line where a node begins is one of the lines of every node around it. -/
theorem startLine_covered (h : f.Placed) (hc : Within f.tree c) {e : Cursor} (he : e ∈ c :: c.enclosing) :
    e.startLine ≤ c.startLine ∧ c.startLine ≤ e.endLine := by
  have hself : Tree.covers c.info.startRow c.tree = true := by
    exact Bool.and_eq_true_iff.2
      ⟨decide_eq_true (Int.le_refl _), decide_eq_true (Int.ofNat_le.2 (h.startRow_le_endRow hc))⟩
  have hcovers : Tree.covers c.info.startRow e.tree = true := by
    rcases List.mem_cons.1 he with rfl | he
    · exact hself
    · exact Tree.covers_of_mem_enclosing h.nestsRows hc hself he
  simp only [Tree.covers, Bool.and_eq_true, decide_eq_true_eq] at hcovers
  simp only [Cursor.startLine, Cursor.endLine, Cursor.info] at hcovers ⊢
  omega

end SourceFile.Placed

/-- It is enough to look at every node once. -/
theorem SourceFile.placed_of_all {f : SourceFile} (h : (f.top.preorder.all fun c =>
    decide (c.info.startByte ≤ c.info.endByte) &&
    (c.tree.children.all fun t =>
      decide (c.info.startByte ≤ t.info.startByte ∧ t.info.endByte ≤ c.info.endByte)) &&
    decide (c.info.startRow = Tree.rowAt f.source c.info.startByte ∧
      c.info.endRow = Tree.rowAt f.source c.info.endByte)) = true) : f.Placed := by
  have hnode : ∀ c, Within f.tree c → _ := fun c hc =>
    List.all_eq_true.1 h c (Tree.mem_preorder_iff.2 hc)
  simp only [Bool.and_eq_true, decide_eq_true_eq, List.all_eq_true] at hnode
  exact ⟨fun c hc => (hnode c hc).1.1, fun c hc => (hnode c hc).1.2, fun c hc => (hnode c hc).2⟩

/-! ## Addresses -/

/-- The node at an address below a node: the way to it, by the numbers of the children. -/
def Cursor.at? (c : Cursor) : List Nat → Option Cursor
  | [] => some c
  | i :: address => c.children[i]?.bind fun child => child.at? address

namespace Cursor

variable {root : Tree} {c d : Cursor} {i : Nat} {address : List Nat}

@[simp] theorem at?_nil (c : Cursor) : c.at? [] = some c := rfl

theorem at?_cons_eq_some_iff :
    c.at? (i :: address) = some d ↔
      ∃ t, c.tree.children[i]? = some t ∧ (⟨t, c.tree :: c.above⟩ : Cursor).at? address = some d := by
  simp [at?, children, Option.bind_eq_some_iff]

theorem at?_append (c : Cursor) (address more : List Nat) :
    c.at? (address ++ more) = (c.at? address).bind fun d => d.at? more := by
  induction address generalizing c with
  | nil => rfl
  | cons i address ih =>
    simp only [List.cons_append, at?, Option.bind_assoc]
    exact congrArg _ (funext ih)

/-- Around the node at an address stand the node one step before it and what stands around that. -/
theorem enclosing_of_at?_concat (h : c.at? (address ++ [i]) = some d) :
    ∃ p, c.at? address = some p ∧ d.enclosing = p :: p.enclosing := by
  rw [at?_append] at h
  rcases Option.bind_eq_some_iff.1 h with ⟨p, hp, hd⟩
  rcases at?_cons_eq_some_iff.1 hd with ⟨t, -, ht⟩
  cases ht
  exact ⟨p, hp, rfl⟩

/-- Every address leads to a node of the tree. -/
theorem Within.of_at? (h : Within root c) (hd : c.at? address = some d) : Within root d := by
  induction address generalizing c with
  | nil =>
    cases hd
    exact h
  | cons i address ih =>
    rcases at?_cons_eq_some_iff.1 hd with ⟨t, ht, hd⟩
    exact ih (h.child (List.mem_of_getElem? ht)) hd

end Cursor

namespace Tree

mutual

/-- The addresses of the nodes of a tree, in the order of the preorder. -/
def addresses : Tree → List (List Nat)
  | .node _ children => [] :: addressesFrom 0 children

/-- The addresses of the nodes of some trees that stand side by side; the first one has this number. -/
def addressesFrom (number : Nat) : List Tree → List (List Nat)
  | [] => []
  | t :: rest => (addresses t).map (number :: ·) ++ addressesFrom (number + 1) rest

end

variable {above : List Tree} {number : Nat} {address : List Nat}

theorem mem_addressesFrom_iff {ts : List Tree} :
    address ∈ addressesFrom number ts ↔
      ∃ i t rest, ts[i]? = some t ∧ rest ∈ addresses t ∧ address = (number + i) :: rest := by
  induction ts generalizing number with
  | nil => simp [addressesFrom]
  | cons t ts ih =>
    rw [addressesFrom, List.mem_append, List.mem_map, ih]
    constructor
    · rintro (⟨rest, hrest, rfl⟩ | ⟨i, u, rest, hu, hrest, rfl⟩)
      · exact ⟨0, t, rest, rfl, hrest, rfl⟩
      · exact ⟨i + 1, u, rest, hu, hrest, by rw [Nat.add_right_comm, Nat.add_assoc]⟩
    · rintro ⟨_ | i, u, rest, hu, hrest, rfl⟩
      · cases hu
        exact .inl ⟨rest, hrest, rfl⟩
      · exact .inr ⟨i, u, rest, hu, hrest, by rw [Nat.add_right_comm, Nat.add_assoc]⟩

mutual

/-- The addresses are those that lead to a node. -/
theorem mem_addresses_iff : ∀ (t : Tree) (above : List Tree) (address : List Nat),
    address ∈ t.addresses ↔ ((⟨t, above⟩ : Cursor).at? address).isSome = true
  | .node info children, above, address => by
    cases address with
    | nil => simp [addresses]
    | cons i address =>
      have hbelow := mem_addresses_of_mem children (.node info children :: above)
      rw [addresses, List.mem_cons, mem_addressesFrom_iff]
      simp only [Option.isSome_iff_exists, Cursor.at?_cons_eq_some_iff]
      constructor
      · rintro (hnil | ⟨j, t, rest, ht, hrest, heq⟩)
        · cases hnil
        · rw [Nat.zero_add] at heq
          cases heq
          have hsome := (hbelow t (List.mem_of_getElem? ht) address).1 hrest
          rcases Option.isSome_iff_exists.1 hsome with ⟨d, hd⟩
          exact ⟨d, t, ht, hd⟩
      · rintro ⟨d, t, ht, hd⟩
        have hrest := (hbelow t (List.mem_of_getElem? ht) address).2 (Option.isSome_iff_exists.2 ⟨d, hd⟩)
        exact .inr ⟨i, t, address, ht, hrest, by rw [Nat.zero_add]⟩

theorem mem_addresses_of_mem : ∀ (ts : List Tree) (above : List Tree), ∀ t ∈ ts, ∀ address : List Nat,
    address ∈ t.addresses ↔ ((⟨t, above⟩ : Cursor).at? address).isSome = true
  | [], _ => fun _ ht => nomatch ht
  | t :: rest, above =>
    List.forall_mem_cons.2 ⟨mem_addresses_iff t above, mem_addresses_of_mem rest above⟩

end

mutual

/-- The addresses are in order: a node comes before what is below it, and children come one after the
other. -/
theorem pairwise_addresses : ∀ t : Tree, t.addresses.Pairwise (· < ·)
  | .node _ children => by
    rw [addresses, List.pairwise_cons]
    refine ⟨fun address haddress => ?_, pairwise_addressesFrom children 0⟩
    rcases mem_addressesFrom_iff.1 haddress with ⟨i, t, rest, -, -, rfl⟩
    exact List.nil_lt_cons _ _

theorem pairwise_addressesFrom : ∀ (ts : List Tree) (number : Nat),
    (addressesFrom number ts).Pairwise (· < ·)
  | [], _ => List.Pairwise.nil
  | t :: rest, number => by
    rw [addressesFrom, List.pairwise_append]
    refine ⟨?_, pairwise_addressesFrom rest (number + 1), ?_⟩
    · rw [List.pairwise_map]
      exact (pairwise_addresses t).imp fun hlt => List.cons_lt_cons_iff.2 (.inr ⟨rfl, hlt⟩)
    · intro first hfirst second hsecond
      rcases List.mem_map.1 hfirst with ⟨inner, -, rfl⟩
      rcases mem_addressesFrom_iff.1 hsecond with ⟨i, u, later, -, -, rfl⟩
      exact List.cons_lt_cons_iff.2 (.inl (by omega))

end

mutual

/-- The preorder is the list of the nodes at the addresses. -/
theorem map_at?_addresses : ∀ (t : Tree) (above : List Tree),
    t.addresses.map (⟨t, above⟩ : Cursor).at? = (t.preorder above).map some
  | .node info children, above => by
    rw [addresses, preorder, List.map_cons, List.map_cons]
    exact congrArg _ (map_at?_addressesFrom children above (.node info children) 0 rfl)

/-- The same for the trees among the children of a node that come last. -/
theorem map_at?_addressesFrom : ∀ (ts : List Tree) (above : List Tree) (t : Tree) (number : Nat),
    t.children.drop number = ts →
      (addressesFrom number ts).map (⟨t, above⟩ : Cursor).at? =
        (preorderAll (t :: above) ts).map some
  | [], _, _, _, _ => by rw [addressesFrom, preorderAll]; rfl
  | u :: rest, above, t, number, hdrop => by
    have hu : t.children[number]? = some u := by
      rw [← List.head?_drop, hdrop]
      rfl
    have hrest : t.children.drop (number + 1) = rest := by
      rw [← List.drop_drop, hdrop]
      rfl
    have hfirst : ∀ address,
        (⟨t, above⟩ : Cursor).at? (number :: address) = (⟨u, t :: above⟩ : Cursor).at? address := by
      intro address
      simp [Cursor.at?, Cursor.children, hu]
    rw [addressesFrom, preorderAll, List.map_append, List.map_append, List.map_map]
    rw [map_at?_addressesFrom rest above t (number + 1) hrest, ← map_at?_addresses u (t :: above)]
    exact congrArg (· ++ _) (List.map_congr_left fun address _ => hfirst address)

end

end Tree

end AffectedTests
