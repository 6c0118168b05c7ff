import Automation.Proofs.Demand
import Automation.Task
/-! Legal trees. The top of a legal tree is a root flow, and nothing below it is, at any depth and
under flows of any kind. A task is made of just the legal trees; what is wrong with any other is
said by the one fault that it has. -/
namespace Automation

namespace Applet

structure Legal (tree : Applet) : Prop where
  rooted : tree.flowKind? = some .root
  alone : ∀ i path b, tree.at? (i :: path) = some b → b.flowKind? ≠ some .root

/- What is wrong with a tree; the top is looked at first. -/
inductive Faulty (tree : Applet) : TreeFault → Prop where
  | topNotFlow (leaf : tree.flowKind? = none) : Faulty tree .topNotFlow
  | topNotRoot {kind} (top : tree.flowKind? = some kind) (other : kind ≠ .root) :
      Faulty tree (.topNotRoot kind)
  | nestedRoot {i path b} (rooted : tree.flowKind? = some .root)
      (below : tree.at? (i :: path) = some b) (root : b.flowKind? = some .root) :
      Faulty tree .nestedRoot

theorem rootFreeAllChildren (children : List Applet) :
    rootFreeAll children = true ↔ ∀ c ∈ children, c.rootFree = true := by
  induction children with
  | nil => simp [rootFreeAll]
  | cons child rest ih => simp [rootFreeAll, ih]

theorem belowChildren (tree : Applet) (holds : Applet → Prop) :
    (∀ i path b, tree.at? (i :: path) = some b → holds b) ↔
      ∀ c ∈ tree.children, ∀ path b, c.at? path = some b → holds b := by
  constructor
  · intro below c inside path b located
    obtain ⟨i, found⟩ := List.mem_iff_getElem?.mp inside
    refine below i path b ?_
    rw [at?, found, Option.bind_some, located]
  · intro deeper i path b located
    obtain ⟨c, found, located⟩ := Option.bind_eq_some_iff.mp located
    exact deeper c (List.mem_of_getElem? found) path b located

theorem rootFreeNodes (a : Applet) :
    a.rootFree = true ↔ ∀ path b, a.at? path = some b → b.flowKind? ≠ some .root := by
  -- A node is the one at the empty path, or stands below.
  have nodes (a : Applet) : (∀ path b, a.at? path = some b → b.flowKind? ≠ some .root) ↔
      a.flowKind? ≠ some .root ∧
        ∀ c ∈ a.children, ∀ path b, c.at? path = some b → b.flowKind? ≠ some .root := by
    rw [← belowChildren a (·.flowKind? ≠ some .root)]
    constructor
    · exact fun free => ⟨free [] a rfl, fun i path => free (i :: path)⟩
    · rintro ⟨top, below⟩ (_ | ⟨i, path⟩) b located
      · exact Option.some.inj located ▸ top
      · exact below i path b located
  induction a using byChildren with
  | criterion info check | action info action | wait info wait =>
    rw [nodes]
    simp [rootFree, flowKind?, children]
  | flow info spec children ih =>
    rw [nodes, rootFree, Bool.and_eq_true, bne_iff_ne, rootFreeAllChildren]
    simp only [flowKind?, Applet.children, ne_eq, Option.some.injEq]
    exact and_congr_right fun _ => forall₂_congr ih

theorem onlyRootBelow (tree : Applet) : rootFreeAll tree.children = true ↔
    ∀ i path b, tree.at? (i :: path) = some b → b.flowKind? ≠ some .root := by
  rw [rootFreeAllChildren, belowChildren tree (·.flowKind? ≠ some .root)]
  exact forall₂_congr fun c _ => rootFreeNodes c

theorem legalFaultless {tree : Applet} (legal : tree.Legal) {fault : TreeFault} :
    ¬tree.Faulty fault := by
  intro faulty
  cases faulty with
  | topNotFlow leaf => simp [legal.rooted] at leaf
  | topNotRoot top other =>
    rw [legal.rooted] at top
    exact other (Option.some.inj top).symm
  | nestedRoot rooted below root => exact legal.alone _ _ _ below root

theorem legalOrFaulty (tree : Applet) : tree.Legal ∨ ∃ fault, tree.Faulty fault := by
  cases top : tree.flowKind? with
  | none => exact .inr ⟨_, .topNotFlow top⟩
  | some kind =>
    by_cases rooted : kind = .root
    · subst rooted
      by_cases nested : ∃ i path b, tree.at? (i :: path) = some b ∧ b.flowKind? = some .root
      · obtain ⟨i, path, b, below, root⟩ := nested
        exact .inr ⟨_, .nestedRoot top below root⟩
      · exact .inl ⟨top, fun i path b below root => nested ⟨i, path, b, below, root⟩⟩
    · exact .inr ⟨_, .topNotRoot top rooted⟩

end Applet

namespace Task
variable {metadata : TaskMetadata} {tree : Applet}

theorem makeLegal (legal : tree.Legal) : Task.make metadata tree =
    .ok ⟨metadata, tree, legal.rooted, tree.onlyRootBelow.mpr legal.alone⟩ := by
  have rooted := legal.rooted
  unfold make
  split
  · exact dif_pos (tree.onlyRootBelow.mpr legal.alone)
  · simp_all
  · simp_all

theorem makeFaulty {fault : TreeFault} (faulty : tree.Faulty fault) :
    Task.make metadata tree = .error (.invalidTree fault) := by
  cases faulty with
  | topNotFlow leaf =>
    unfold make
    split <;> simp_all
  | topNotRoot top other =>
    unfold make
    split <;> simp_all
  | nestedRoot rooted below root =>
    have nested : ¬Applet.rootFreeAll tree.children = true :=
      fun free => tree.onlyRootBelow.mp free _ _ _ below root
    unfold make
    split
    · exact dif_neg nested
    · simp_all
    · simp_all

/- A tree makes a task if and only if it is legal, and then the task has this tree and what was
said about it; every other tree is refused as invalid, for the fault that it has. -/
theorem madeOfLegal (metadata : TaskMetadata) (tree : Applet) :
    ((∃ task, Task.make metadata tree = .ok task) ↔ tree.Legal) ∧
      (∀ task, Task.make metadata tree = .ok task ↔
        tree.Legal ∧ task.metadata = metadata ∧ task.tree = tree) ∧
      ∀ e, Task.make metadata tree = .error e ↔
        ∃ fault, tree.Faulty fault ∧ e = .invalidTree fault := by
  rcases tree.legalOrFaulty with legal | ⟨fault, faulty⟩
  · have unfaulty (fault : TreeFault) : ¬tree.Faulty fault := Applet.legalFaultless legal
    rw [makeLegal legal]
    refine ⟨⟨fun _ => legal, fun _ => ⟨_, rfl⟩⟩, fun task => ⟨?_, ?_⟩, fun e => by simp [unfaulty]⟩
    · rintro ⟨⟩
      exact ⟨legal, rfl, rfl⟩
    · obtain ⟨_, _, _, _⟩ := task
      rintro ⟨-, rfl, rfl⟩
      rfl
  · have illegal : ¬tree.Legal := fun legal => Applet.legalFaultless legal faulty
    rw [makeFaulty faulty]
    refine ⟨by simp [illegal], fun task => by simp [illegal], fun e => ⟨?_, ?_⟩⟩
    · rintro ⟨⟩
      exact ⟨fault, faulty, rfl⟩
    · -- A tree has no two faults, since it is refused for the one it has.
      rintro ⟨other, faulty', rfl⟩
      have refused : Task.make metadata tree = .error (.invalidTree fault) := makeFaulty faulty
      rw [← refused, makeFaulty faulty']

example : Task.make { title := "nested" } (.flow default { kind := .root }
    [.wait default (.ofType ⟨"go"⟩), .flow default { kind := .ifAll }
      [.flow default { kind := .container } [.flow default { kind := .root } []]]]) =
    .error (.invalidTree .nestedRoot) := rfl

end Task
end Automation
