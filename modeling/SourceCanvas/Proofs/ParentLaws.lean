import SourceCanvas.Proofs.Rewriting

/-!
# Parents of the nodes that stay

Removing a node leaves the others where they are. But the children of the removed node go on to name
it as their parent, and writing the text anew gives ids away. `Session.keepsParents_iff` says exactly
when all nodes that stay have the parents they had: nobody may get an id under which a node looks for
a parent that is missing, and nobody may come to the id of the parent of another node.
-/

namespace SourceCanvas

open Text (given?)

namespace Session

open Graph (newId)

variable {session : Session} {before rest : Graph} {id : String} {x x' y y' : CanvasNode}

/-! ## Parents after writing -/

/-- The nodes that stay have the parents that they had in the graph before. -/
def KeepsParents (session : Session) (before rest after : Graph) : Prop :=
  ∀ x x' y y', session.Becomes rest after x x' → session.Becomes rest after y y' →
    (after.parentOf? x' = some y' ↔ before.parentOf? x = some y)

/-- No node comes to where another one looks for its parent, apart from that parent. -/
structure Unclaimed (session : Session) (rest after : Graph) : Prop where
  /-- nobody gets the id of a parent that is missing -/
  missing : ∀ x x' y y', session.Becomes rest after x x' → session.Becomes rest after y y' →
    rest.parentOf? x = none →
      given? (x.parent.map (newId (session.renewed rest).2)) ≠
        some (newId (session.renewed rest).2 y.id)
  /-- nobody else comes to the id of a parent that is there -/
  present : ∀ x x' y y' parent, session.Becomes rest after x x' → session.Becomes rest after y y' →
    rest.parentOf? x = some parent →
      newId (session.renewed rest).2 y.id = newId (session.renewed rest).2 parent.id →
        y = parent

/-- A node that stays finds another one as its parent afterwards if it names the new id of that. -/
theorem Becomes.parentOf?_iff (apart : rest.ids.Nodup)
    (first : session.Becomes rest (session.renewed rest).1 x x')
    (second : session.Becomes rest (session.renewed rest).1 y y') :
    (session.renewed rest).1.parentOf? x' = some y' ↔
      given? (x.parent.map (newId (session.renewed rest).2)) =
        some (newId (session.renewed rest).2 y.id) := by
  rw [Graph.parentOf?_iff (nodup_ids_renewed session apart) second.left, first.same, second.same,
    parent_renewedNode, id_renewedNode]

theorem keepsParents_renewed (apart : rest.ids.Nodup) :
    session.KeepsParents rest rest (session.renewed rest).1 ↔
      session.Unclaimed rest (session.renewed rest).1 := by
  constructor
  · refine fun keeps => ⟨?_, ?_⟩
    · intro x x' y y' first second missing given
      have found := (keeps x x' y y' first second).mp ((first.parentOf?_iff apart second).mpr given)
      rw [missing] at found
      cases found
    · intro x x' y y' parent first second present same
      obtain ⟨names, filled⟩ := Text.given?_eq_some.mp
        ((Graph.parentOf?_iff apart (Graph.mem_of_parentOf? present)).mp present)
      have given : given? (x.parent.map (newId (session.renewed rest).2)) =
          some (newId (session.renewed rest).2 y.id) := by
        rw [names, same]
        exact Text.given?_eq_some.mpr ⟨rfl, newId_renewed_ne_empty session rest filled⟩
      have found := (keeps x x' y y' first second).mp ((first.parentOf?_iff apart second).mpr given)
      exact Option.some.inj (found.symm.trans present)
  · intro unclaimed x x' y y' first second
    rw [first.parentOf?_iff apart second]
    constructor
    · intro given
      cases found : rest.parentOf? x with
      | none => exact absurd given (unclaimed.missing x x' y y' first second found)
      | some parent =>
        obtain ⟨names, -⟩ := Text.given?_eq_some.mp
          ((Graph.parentOf?_iff apart (Graph.mem_of_parentOf? found)).mp found)
        rw [names] at given
        obtain ⟨same, -⟩ := Text.given?_eq_some.mp given
        rw [unclaimed.present x x' y y' parent first second found (Option.some.inj same).symm]
    · intro found
      obtain ⟨names, filled⟩ := Text.given?_eq_some.mp
        ((Graph.parentOf?_iff apart second.member).mp found)
      rw [names]
      exact Text.given?_eq_some.mpr ⟨rfl, newId_renewed_ne_empty session rest filled⟩

/-! ## Removals -/

theorem nodup_ids_removeNode? (apart : before.ids.Nodup)
    (removed : before.removeNode? id = some rest) : rest.ids.Nodup := by
  rw [Graph.ids, Graph.nodes_of_removeNode? removed]
  exact apart.sublist (List.filter_sublist.map _)

/-- A removal leaves the parents of the nodes that stay. -/
theorem parentOf?_removeNode? (apart : before.ids.Nodup)
    (removed : before.removeNode? id = some rest) (member : y ∈ rest.nodes) :
    rest.parentOf? x = some y ↔ before.parentOf? x = some y := by
  have inside : y ∈ before.nodes :=
    (List.mem_filter.mp (Graph.nodes_of_removeNode? removed ▸ member)).1
  rw [Graph.parentOf?_iff (nodup_ids_removeNode? apart removed) member,
    Graph.parentOf?_iff apart inside]

/-- **Removal**: the nodes that stay have the parents they had exactly if, once the text is written
anew, nobody gets the id of a missing parent or comes to the id of the parent of another node. -/
theorem keepsParents_iff (depth : Nat) (idle : session.phase = .idle)
    (listeners : session.setup.OperatesOnly) (apart : session.graph.ids.Nodup)
    (removed : session.graph.removeNode? (session.graph.resolve id) = some rest) :
    session.KeepsParents session.graph rest (session.next depth (.removeNode id)).graph ↔
      session.Unclaimed rest (session.next depth (.removeNode id)).graph := by
  have shown : GraphChange.remove (session.graph.resolve id) session.graph =
      (rest, .ok .visible) := by
    rw [GraphChange.remove, removed]
  have asks : Command.change? session (.removeNode id) =
      some (.remove (session.graph.resolve id)) := rfl
  rw [(next_of_shown depth idle listeners asks shown).2,
    ← keepsParents_renewed (nodup_ids_removeNode? apart removed)]
  have same {x y y' : CanvasNode} {after : Graph} (second : session.Becomes rest after y y') :
      rest.parentOf? x = some y ↔ session.graph.parentOf? x = some y :=
    parentOf?_removeNode? apart removed second.member
  constructor
  · exact fun keeps x x' y y' first second => (keeps x x' y y' first second).trans (same second).symm
  · exact fun keeps x x' y y' first second => (keeps x x' y y' first second).trans (same second)

/-- A session in which two declarations have been read. -/
def declared : Session :=
  (start {} none {}).next 0 (.changeText (.whole "const p = 2; const w = 3;"))

/-- Its graph without the first declaration. -/
def pruned : Graph := (declared.graph.removeNode? (declared.graph.resolve "#0")).getD {}

/-- The number that the removed declaration held stays without a parent. -/
theorem keepsParents_pruned :
    declared.graph.removeNode? (declared.graph.resolve "#0") = some pruned ∧
      declared.KeepsParents declared.graph pruned (declared.next 0 (.removeNode "#0")).graph := by
  obtain ⟨removed, unheard, idle, apart, unclaimed⟩ :
      declared.graph.removeNode? (declared.graph.resolve "#0") = some pruned ∧
        declared.setup.listeners = [] ∧ declared.phase = .idle ∧ declared.graph.ids.Nodup ∧
        ∀ x ∈ pruned.nodes, ∀ y ∈ pruned.nodes,
          (pruned.parentOf? x = none →
            given? (x.parent.map (newId (declared.renewed pruned).2)) ≠
              some (newId (declared.renewed pruned).2 y.id)) ∧
          ∀ parent ∈ pruned.parentOf? x,
            newId (declared.renewed pruned).2 y.id = newId (declared.renewed pruned).2 parent.id →
              y = parent := by
    decide +kernel
  refine ⟨removed, (keepsParents_iff 0 idle (Setup.operatesOnly_of_unheard unheard) apart
    removed).mpr
    ⟨?_, ?_⟩⟩
  · exact fun x _ y _ first second => (unclaimed x first.member y second.member).1
  · exact fun x _ y _ parent first second present =>
      (unclaimed x first.member y second.member).2 parent present

/-- A session in which two declarations have been read that are far to the right. -/
def indented : Session :=
  (start {} none {}).next 0 (.changeText
    (.whole "                                        export const p = 2;export const w = 3;"))

/-- Its graph without the first declaration. -/
def shorn : Graph := (indented.graph.removeNode? (indented.graph.resolve "#0")).getD {}

/-- The second declaration gets the id of the first one, and with it the number below that. -/
theorem not_keepsParents_shorn :
    indented.graph.removeNode? (indented.graph.resolve "#0") = some shorn ∧
      ¬indented.KeepsParents indented.graph shorn (indented.next 0 (.removeNode "#0")).graph := by
  obtain ⟨removed, x, first, y, second, other, left, left', found⟩ :
      indented.graph.removeNode? (indented.graph.resolve "#0") = some shorn ∧
        ∃ x ∈ shorn.nodes, ∃ y ∈ shorn.nodes, indented.graph.parentOf? x ≠ some y ∧
          indented.renewedNode shorn x ∈ (indented.next 0 (.removeNode "#0")).graph.nodes ∧
          indented.renewedNode shorn y ∈ (indented.next 0 (.removeNode "#0")).graph.nodes ∧
          (indented.next 0 (.removeNode "#0")).graph.parentOf? (indented.renewedNode shorn x) =
            some (indented.renewedNode shorn y) := by
    decide +kernel
  exact ⟨removed, fun keeps =>
    other ((keeps x _ y _ ⟨first, rfl, left⟩ ⟨second, rfl, left'⟩).mp found)⟩

end Session

end SourceCanvas
