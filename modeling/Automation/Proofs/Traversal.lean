import Mathlib.Data.List.Infix
import Automation.Run.Journal
/-! Lists of calls of an observer's callbacks in a walk of a tree. In a traversal every visited node
starts and ends, and between the two each of its children is either visited in turn or reported as
skipped. A cut is what there is of a traversal when the walk stops. -/
namespace Automation

structure Call where
  phase : Phase
  path : List Nat
  applet : AppletInfo

def Applet.call (a : Applet) (phase : Phase) (path : List Nat) : Call := ⟨phase, path, a.info⟩

inductive Members : List Nat → Nat → List Applet → List Call → Prop where
  | none {path i} : Members path i [] []
  | skipped {path i} {child : Applet} {rest calls} (later : Members path (i + 1) rest calls) :
      Members path i (child :: rest) (child.call .skipped (path ++ [i]) :: calls)
  | visited {path i} {child : Applet} {rest inner calls}
      (below : Members (path ++ [i]) 0 child.children inner)
      (later : Members path (i + 1) rest calls) :
      Members path i (child :: rest)
        ((child.call .started (path ++ [i]) :: inner ++ [child.call .terminated (path ++ [i])]) ++
          calls)

inductive Traversal (path : List Nat) (a : Applet) : List Call → Prop where
  | mk {inner} (members : Members path 0 a.children inner) :
      Traversal path a (a.call .started path :: inner ++ [a.call .terminated path])

theorem membersWithin {path i children calls} (members : Members path i children calls) {c}
    (inside : c ∈ calls) : ∃ j, i ≤ j ∧ j < i + children.length ∧ path ++ [j] <+: c.path := by
  induction members with
  | none => simp at inside
  | @skipped path i child rest calls later ih =>
    rcases List.mem_cons.mp inside with rfl | behind
    · exact ⟨i, Nat.le_refl i, by simp, List.prefix_refl _⟩
    · obtain ⟨j, low, high, below⟩ := ih behind
      exact ⟨j, by omega, by simp; omega, below⟩
  | @visited path i child rest inner calls below later ihBelow ihLater =>
    simp only [List.cons_append, List.append_assoc, List.nil_append, List.mem_cons,
      List.mem_append] at inside
    rcases inside with rfl | under | rfl | behind
    · exact ⟨i, Nat.le_refl i, by simp, List.prefix_refl _⟩
    · obtain ⟨j, -, -, deeper⟩ := ihBelow under
      exact ⟨i, Nat.le_refl i, by simp, (List.prefix_append _ _).trans deeper⟩
    · exact ⟨i, Nat.le_refl i, by simp, List.prefix_refl _⟩
    · obtain ⟨j, low, high, deeper⟩ := ihLater behind
      exact ⟨j, by omega, by simp; omega, deeper⟩

theorem childrenApart {path q : List Nat} {i j : Nat} (first : path ++ [i] <+: q)
    (second : path ++ [j] <+: q) : i = j := by
  obtain ⟨r, rfl⟩ := first
  obtain ⟨t, same⟩ := second
  simp only [List.append_assoc, List.append_cancel_left_eq, List.cons_append, List.nil_append,
    List.cons.injEq] at same
  exact same.1.symm

theorem childBelow {path q : List Nat} {i : Nat} (under : path ++ [i] <+: q) : q ≠ path := by
  rintro rfl
  have short := under.length_le
  rw [List.length_append, List.length_singleton] at short
  omega

theorem membersAppend {path i before rest first second} (left : Members path i before first)
    (right : Members path (i + before.length) rest second) :
    Members path i (before ++ rest) (first ++ second) := by
  induction left with
  | none => simpa using right
  | @skipped path i child before calls later ih =>
    refine .skipped (ih ?_)
    rwa [List.length_cons, Nat.add_comm before.length, ← Nat.add_assoc] at right
  | @visited path i child before inner calls below later _ ih =>
    have onward : Members path (i + 1 + before.length) rest second := by
      rwa [List.length_cons, Nat.add_comm before.length, ← Nat.add_assoc] at right
    simpa using Members.visited below (ih onward)

theorem membersSkipped (path : List Nat) (i : Nat) (children : List Applet) :
    ∃ calls, Members path i children calls := by
  induction children generalizing i with
  | nil => exact ⟨[], .none⟩
  | cons child rest ih =>
    obtain ⟨calls, later⟩ := ih (i + 1)
    exact ⟨_, .skipped later⟩

theorem membersVisited {path i child rest front calls}
    (first : Traversal (path ++ [i]) child front) (later : Members path (i + 1) rest calls) :
    Members path i (child :: rest) (front ++ calls) := by
  obtain ⟨below⟩ := first
  exact .visited below later

def starts (calls : List Call) : List (List Nat) :=
  (calls.filter fun c => c.phase = .started).map Call.path

def ends (calls : List Call) : List (List Nat) :=
  (calls.filter fun c => c.phase = .terminated).map Call.path

def unclosed (calls : List Call) : List (List Nat) :=
  (starts calls).filter fun path => path ∉ ends calls

def phasesAt (calls : List Call) (path : List Nat) : List Phase :=
  (calls.filter fun c => c.path = path).map Call.phase

theorem phasesAtAppend (first second : List Call) (path : List Nat) :
    phasesAt (first ++ second) path = phasesAt first path ++ phasesAt second path := by
  simp [phasesAt]

theorem phasesAtNone {calls : List Call} {path : List Nat} (other : ∀ c ∈ calls, c.path ≠ path) :
    phasesAt calls path = [] := by
  have empty : (calls.filter fun c => c.path = path) = [] :=
    List.filter_eq_nil_iff.mpr fun c inside => by simp [other c inside]
  rw [phasesAt, empty, List.map_nil]

structure Orderly (calls : List Call) : Prop where
  once (path : List Nat) : phasesAt calls path = [] ∨
    phasesAt calls path = [.started, .terminated] ∨ phasesAt calls path = [.skipped]
  alone (c d : Call) : c ∈ calls → d ∈ calls → c.phase = .skipped → c.path <+: d.path → d = c

theorem orderlySkipped (a : Applet) (path : List Nat) : Orderly [a.call .skipped path] where
  once q := by
    by_cases own : path = q
    · exact .inr (.inr (by simp [phasesAt, Applet.call, own]))
    · exact .inl (by simp [phasesAt, Applet.call, own])
  alone c d inside inside' _ _ := by
    rw [List.mem_singleton.mp inside, List.mem_singleton.mp inside']

theorem orderlyBeside {first second : List Call} (left : Orderly first) (right : Orderly second)
    (apart : ∀ c ∈ first, ∀ d ∈ second, ¬c.path <+: d.path ∧ ¬d.path <+: c.path) :
    Orderly (first ++ second) where
  once q := by
    rw [phasesAtAppend]
    by_cases here : ∃ c ∈ first, c.path = q
    · obtain ⟨c, inside, same⟩ := here
      have none : phasesAt second q = [] := by
        refine phasesAtNone fun d inside' equal => (apart c inside d inside').1 ?_
        rw [same, equal]
      rw [none, List.append_nil]
      exact left.once q
    · have none : phasesAt first q = [] :=
        phasesAtNone fun c inside equal => here ⟨c, inside, equal⟩
      rw [none, List.nil_append]
      exact right.once q
  alone c d inside inside' skipped under := by
    rcases List.mem_append.mp inside with inFirst | inSecond
    · rcases List.mem_append.mp inside' with inFirst' | inSecond'
      · exact left.alone c d inFirst inFirst' skipped under
      · exact absurd under (apart c inFirst d inSecond').1
    · rcases List.mem_append.mp inside' with inFirst' | inSecond'
      · exact absurd under (apart d inFirst' c inSecond).2
      · exact right.alone c d inSecond inSecond' skipped under

theorem orderlyAround {inner : List Call} (orderly : Orderly inner) (a : Applet) {path : List Nat}
    (below : ∀ c ∈ inner, path <+: c.path ∧ c.path ≠ path) :
    Orderly (a.call .started path :: inner ++ [a.call .terminated path]) where
  once q := by
    rw [← List.singleton_append, phasesAtAppend, phasesAtAppend]
    by_cases own : path = q
    · have none : phasesAt inner q = [] :=
        phasesAtNone fun c inside equal => (below c inside).2 (equal.trans own.symm)
      rw [none]
      exact .inr (.inl (by simp [phasesAt, Applet.call, own]))
    · have outside (phase : Phase) : phasesAt [a.call phase path] q = [] := by
        simp [phasesAt, Applet.call, own]
      rw [outside, outside, List.nil_append, List.append_nil]
      exact orderly.once q
  alone c d inside inside' skipped under := by
    simp only [List.cons_append, List.mem_cons, List.mem_append, List.not_mem_nil, or_false]
      at inside inside'
    rcases inside with rfl | inside | rfl
    · cases skipped
    · have lower := below c inside
      have notAbove (phase : Phase) : ¬c.path <+: (a.call phase path).path := fun above =>
        lower.2 (lower.1.eq_of_length_le above.length_le).symm
      rcases inside' with rfl | inside' | rfl
      · exact absurd under (notAbove .started)
      · exact orderly.alone c d inside inside' skipped under
      · exact absurd under (notAbove .terminated)
    · cases skipped

theorem membersBelow {path children calls} (members : Members path 0 children calls) :
    ∀ c ∈ calls, path <+: c.path ∧ c.path ≠ path := by
  intro c inside
  obtain ⟨j, -, -, under⟩ := membersWithin members inside
  exact ⟨(List.prefix_append _ _).trans under, childBelow under⟩

theorem traversalWithin {path a calls} (traversal : Traversal path a calls) :
    ∀ c ∈ calls, path <+: c.path := by
  obtain ⟨members⟩ := traversal
  intro c inside
  simp only [List.cons_append, List.mem_cons, List.mem_append, List.not_mem_nil, or_false]
    at inside
  rcases inside with rfl | inside | rfl
  · exact List.prefix_refl _
  · exact (membersBelow members c inside).1
  · exact List.prefix_refl _

theorem apartUnder {path p q : List Nat} {i j : Nat} (differ : i ≠ j) (left : path ++ [i] <+: p)
    (right : path ++ [j] <+: q) : ¬p <+: q ∧ ¬q <+: p :=
  ⟨fun above => differ (childrenApart (left.trans above) right),
    fun above => differ (childrenApart left (right.trans above))⟩

theorem membersOrderly {path i children calls} (members : Members path i children calls) :
    Orderly calls := by
  induction members with
  | none => exact ⟨fun _ => .inl rfl, fun _ _ inside => by simp at inside⟩
  | @skipped path i child rest calls later ih =>
    refine orderlyBeside (orderlySkipped child _) ih fun c inside d inside' => ?_
    obtain ⟨j, low, -, under⟩ := membersWithin later inside'
    rw [List.mem_singleton.mp inside]
    exact apartUnder (by omega) (List.prefix_refl _) under
  | @visited path i child rest inner calls below later ihBelow ihLater =>
    refine orderlyBeside (orderlyAround ihBelow child (membersBelow below)) ihLater
      fun c inside d inside' => ?_
    obtain ⟨j, low, -, under⟩ := membersWithin later inside'
    exact apartUnder (by omega) (traversalWithin ⟨below⟩ c inside) under

theorem traversalOrderly {path a calls} (traversal : Traversal path a calls) : Orderly calls := by
  obtain ⟨members⟩ := traversal
  exact orderlyAround (membersOrderly members) a (membersBelow members)

/- A call about this node. Around a start stands the traversal of the node, and nothing else is
told about the node or about what is below it. -/
structure Placed (calls : List Call) (c : Call) (a : Applet) : Prop where
  applet : c.applet = a.info
  nested : c.phase = .started → ∃ before inner after, calls = before ++ inner ++ after ∧
    Traversal c.path a inner ∧ ∀ d ∈ before ++ after, ¬c.path <+: d.path

theorem placedWithin {calls c a} (placed : Placed calls c a) (left right : List Call)
    (others : ∀ d ∈ left ++ right, ¬c.path <+: d.path) : Placed (left ++ calls ++ right) c a where
  applet := placed.applet
  nested started := by
    obtain ⟨before, inner, after, rfl, traversal, near⟩ := placed.nested started
    refine ⟨left ++ before, inner, after ++ right, by simp, traversal, fun d inside => ?_⟩
    have either : d ∈ before ++ after ∨ d ∈ left ++ right := by
      simp only [List.mem_append] at inside ⊢
      tauto
    exact either.elim (near d) (others d)

theorem aroundPlaced {path inner} (a : Applet) (members : Members path 0 a.children inner)
    {c : Call} (inside : c ∈ a.call .started path :: inner ++ [a.call .terminated path])
    (deeper : c ∈ inner → ∃ j r node, c.path = path ++ j :: r ∧
      (a.children[j]?).bind (Applet.at? r) = some node ∧ Placed inner c node) :
    ∃ r node, c.path = path ++ r ∧ a.at? r = some node ∧
      Placed (a.call .started path :: inner ++ [a.call .terminated path]) c node := by
  simp only [List.cons_append, List.mem_cons, List.mem_append, List.not_mem_nil, or_false]
    at inside
  rcases inside with rfl | inside | rfl
  · refine ⟨[], a, (List.append_nil path).symm, rfl, rfl, fun _ => ?_⟩
    exact ⟨[], _, [], (List.append_nil _).symm, ⟨members⟩, fun d inside => by simp at inside⟩
  · obtain ⟨j, r, node, place, located, placed⟩ := deeper inside
    have lower := membersBelow members c inside
    have notAbove (phase : Phase) : ¬c.path <+: (a.call phase path).path := fun above =>
      lower.2 (lower.1.eq_of_length_le above.length_le).symm
    refine ⟨j :: r, node, place, located, ?_⟩
    refine placedWithin placed [a.call .started path] [a.call .terminated path] fun d edge => ?_
    rcases List.mem_append.mp edge with first | last
    · rw [List.mem_singleton.mp first]
      exact notAbove .started
    · rw [List.mem_singleton.mp last]
      exact notAbove .terminated
  · exact ⟨[], a, (List.append_nil path).symm, rfl, rfl, fun absurd => by cases absurd⟩

theorem membersPlaced {path i children calls} (members : Members path i children calls) {c}
    (inside : c ∈ calls) :
    ∃ j r a, c.path = path ++ (i + j) :: r ∧ (children[j]?).bind (Applet.at? r) = some a ∧
      Placed calls c a := by
  induction members with
  | none => simp at inside
  | @skipped path i child rest calls later ih =>
    rcases List.mem_cons.mp inside with rfl | behind
    · exact ⟨0, [], child, rfl, rfl, rfl, fun absurd => by cases absurd⟩
    · obtain ⟨j, r, a, place, node, placed⟩ := ih behind
      obtain ⟨k, low, -, under⟩ := membersWithin later behind
      refine ⟨j + 1, r, a, by rw [place]; simp; omega, node, ?_⟩
      have apart : ¬c.path <+: (child.call .skipped (path ++ [i])).path :=
        (apartUnder (by omega) under (List.prefix_refl (path ++ [i]))).1
      simpa using placedWithin placed [child.call .skipped (path ++ [i])] [] (by simpa using apart)
  | @visited path i child rest inner calls below later ihBelow ihLater =>
    rcases List.mem_append.mp inside with front | behind
    · obtain ⟨r, a, place, node, placed⟩ := aroundPlaced child below front fun deeper => by
        simpa using ihBelow deeper
      refine ⟨0, r, a, by simpa using place, node, ?_⟩
      refine placedWithin placed [] calls fun d member => ?_
      obtain ⟨k, low, -, under⟩ := membersWithin later member
      exact (apartUnder (by omega) (traversalWithin ⟨below⟩ c front) under).1
    · obtain ⟨j, r, a, place, node, placed⟩ := ihLater behind
      obtain ⟨k, low, -, under⟩ := membersWithin later behind
      refine ⟨j + 1, r, a, by rw [place]; simp; omega, node, ?_⟩
      have placed' := placedWithin placed _ [] fun d member => by
        rw [List.append_nil] at member
        exact (apartUnder (by omega) under (traversalWithin ⟨below⟩ d member)).1
      simpa using placed'

theorem traversalPlaced {path a calls} (traversal : Traversal path a calls) {c}
    (inside : c ∈ calls) :
    ∃ r node, c.path = path ++ r ∧ a.at? r = some node ∧ Placed calls c node := by
  obtain ⟨members⟩ := traversal
  refine aroundPlaced a members inside fun deeper => ?_
  simpa using membersPlaced members deeper

/- What a list of calls has to be when the walk of a whole tree has come to its end. -/
structure WellTold (tree : Applet) (calls : List Call) : Prop where
  traversal : Traversal [] tree calls
  orderly : Orderly calls
  placed : ∀ c ∈ calls, ∃ node, tree.at? c.path = some node ∧ Placed calls c node

theorem traversalWellTold {tree calls} (traversal : Traversal [] tree calls) :
    WellTold tree calls where
  traversal := traversal
  orderly := traversalOrderly traversal
  placed c inside := by
    obtain ⟨r, node, place, located, placed⟩ := traversalPlaced traversal inside
    rw [List.nil_append] at place
    exact ⟨node, place ▸ located, placed⟩

/- A walk stopped at the node that `stood` leads to from `path`, with all children before it
gone through. -/
inductive Cut : List Nat → Applet → List Call → List Nat → Prop where
  | here {path} {a : Applet} {before rest inner} (children : a.children = before ++ rest)
      (members : Members path 0 before inner) : Cut path a (a.call .started path :: inner) []
  | inside {path} {a child : Applet} {before rest inner calls stood}
      (children : a.children = before ++ child :: rest) (members : Members path 0 before inner)
      (cut : Cut (path ++ [before.length]) child calls stood) :
      Cut path a (a.call .started path :: inner ++ calls) (before.length :: stood)

theorem cutWithin {path a calls stood} (cut : Cut path a calls stood) :
    ∀ c ∈ calls, path <+: c.path := by
  induction cut with
  | @here path a before rest inner children members =>
    intro c inside
    rcases List.mem_cons.mp inside with rfl | below
    · exact List.prefix_refl _
    · exact (membersBelow members c below).1
  | @inside path a child before rest inner calls stood children members cut ih =>
    intro c inside
    rcases List.mem_append.mp inside with front | behind
    · rcases List.mem_cons.mp front with rfl | below
      · exact List.prefix_refl _
      · exact (membersBelow members c below).1
    · exact (List.prefix_append _ _).trans (ih c behind)

theorem cutLocated {path a calls stood} (cut : Cut path a calls stood) :
    (a.at? stood).isSome := by
  induction cut with
  | here => rfl
  | @inside path a child before rest inner calls stood children members cut ih =>
    rw [Applet.at?, children]
    simpa using ih

theorem traversalExists (path : List Nat) (a : Applet) : ∃ calls, Traversal path a calls := by
  obtain ⟨inner, members⟩ := membersSkipped path 0 a.children
  exact ⟨_, ⟨members⟩⟩

theorem cutCompletes {path a calls stood} (cut : Cut path a calls stood) :
    ∃ rest, Traversal path a (calls ++ rest) := by
  induction cut with
  | @here path a before rest inner children members =>
    obtain ⟨more, skipped⟩ := membersSkipped path (0 + before.length) rest
    have whole := membersAppend members skipped
    rw [← children] at whole
    exact ⟨more ++ [a.call .terminated path], by simpa using Traversal.mk whole⟩
  | @inside path a child before rest inner calls stood children members cut ih =>
    obtain ⟨more, traversal⟩ := ih
    obtain ⟨after, skipped⟩ := membersSkipped path (before.length + 1) rest
    have visited := membersVisited traversal skipped
    rw [← Nat.zero_add before.length] at visited
    have whole := membersAppend members visited
    rw [← children] at whole
    exact ⟨more ++ after ++ [a.call .terminated path], by simpa using Traversal.mk whole⟩

theorem startsTold {calls : List Call} {path : List Nat} (started : path ∈ starts calls) :
    ∃ c ∈ calls, c.path = path := by
  obtain ⟨c, inside, same⟩ := List.mem_map.mp started
  exact ⟨c, (List.mem_filter.mp inside).1, same⟩

theorem endsTold {calls : List Call} {path : List Nat} (ended : path ∈ ends calls) :
    ∃ c ∈ calls, c.path = path := by
  obtain ⟨c, inside, same⟩ := List.mem_map.mp ended
  exact ⟨c, (List.mem_filter.mp inside).1, same⟩

theorem memStarts {calls : List Call} {path : List Nat} :
    path ∈ starts calls ↔ .started ∈ phasesAt calls path := by
  simp only [starts, phasesAt, List.mem_map, List.mem_filter, decide_eq_true_eq]
  constructor
  · rintro ⟨c, ⟨inside, started⟩, same⟩
    exact ⟨c, ⟨inside, same⟩, started⟩
  · rintro ⟨c, ⟨inside, same⟩, started⟩
    exact ⟨c, ⟨inside, started⟩, same⟩

theorem memEnds {calls : List Call} {path : List Nat} :
    path ∈ ends calls ↔ .terminated ∈ phasesAt calls path := by
  simp only [ends, phasesAt, List.mem_map, List.mem_filter, decide_eq_true_eq]
  constructor
  · rintro ⟨c, ⟨inside, ended⟩, same⟩
    exact ⟨c, ⟨inside, same⟩, ended⟩
  · rintro ⟨c, ⟨inside, same⟩, ended⟩
    exact ⟨c, ⟨inside, ended⟩, same⟩

theorem orderlyCloses {calls : List Call} (orderly : Orderly calls) {path : List Nat}
    (started : path ∈ starts calls) : path ∈ ends calls := by
  rw [memStarts] at started
  rw [memEnds]
  rcases orderly.once path with same | same | same <;> rw [same] at started ⊢ <;> simp_all

theorem unclosedAround {path : List Nat} {a : Applet} {inner calls : List Call}
    (closed : ∀ q ∈ starts inner, q ∈ ends inner) (below : path ∉ ends inner ++ ends calls)
    (apart : ∀ q ∈ starts calls, q ∉ ends inner) :
    unclosed (a.call .started path :: inner ++ calls) = path :: unclosed calls := by
  have first : starts (a.call .started path :: inner ++ calls) =
      path :: starts inner ++ starts calls := by simp [starts, Applet.call]
  have last : ends (a.call .started path :: inner ++ calls) = ends inner ++ ends calls := by
    simp [ends, Applet.call]
  have gone : (starts inner).filter (fun q => q ∉ ends inner ++ ends calls) = [] := by
    refine List.filter_eq_nil_iff.mpr fun q started => ?_
    simp [closed q started]
  have kept : (starts calls).filter (fun q => q ∉ ends inner ++ ends calls) =
      (starts calls).filter (fun q => q ∉ ends calls) := by
    refine List.filter_congr fun q started => ?_
    simp [apart q started]
  rw [unclosed, first, last, List.cons_append, List.filter_cons, if_pos (by simpa using below),
    List.filter_append, gone, kept, List.nil_append, unclosed]

theorem cutUnclosed {path a calls stood} (cut : Cut path a calls stood) :
    unclosed calls = stood.inits.map (path ++ ·) := by
  induction cut with
  | @here path a before rest inner children members =>
    have closed : ∀ q ∈ starts inner, q ∈ ends inner :=
      fun q started => orderlyCloses (membersOrderly members) started
    have below : path ∉ ends inner := by
      intro ended
      obtain ⟨c, inside, same⟩ := endsTold ended
      exact (membersBelow members c inside).2 same
    have around := unclosedAround (a := a) closed (by simpa [ends] using below)
      (fun q (started : q ∈ starts []) => by simp [starts] at started)
    rw [List.append_nil] at around
    rw [around]
    simp [unclosed, starts]
  | @inside path a child before rest inner calls stood children members cut ih =>
    have closed : ∀ q ∈ starts inner, q ∈ ends inner :=
      fun q started => orderlyCloses (membersOrderly members) started
    have below : path ∉ ends inner ++ ends calls := by
      intro ended
      rcases List.mem_append.mp ended with early | late
      · obtain ⟨c, inside, same⟩ := endsTold early
        exact (membersBelow members c inside).2 same
      · obtain ⟨c, inside, same⟩ := endsTold late
        exact childBelow (cutWithin cut c inside) same
    have apart : ∀ q ∈ starts calls, q ∉ ends inner := by
      intro q started ended
      obtain ⟨c, inside, rfl⟩ := startsTold started
      obtain ⟨d, inside', same⟩ := endsTold ended
      obtain ⟨j, -, high, under⟩ := membersWithin members inside'
      rw [same] at under
      have := childrenApart under (cutWithin cut c inside)
      omega
    rw [unclosedAround closed below apart, ih]
    simp

end Automation
