import Mathlib.Data.List.Infix
import Automation.Run.Walk
import Automation.Proofs.Demand
import Automation.Proofs.Traversal
/-! What observers are told of walks, with the results that applets end with. A tale is what is told
of one visit of a node, which need not have come to its end; of the children of a flow it tells what
the chain among them demands. -/
namespace Automation

inductive Told where
  | started (path : List Nat)
  | ended (path : List Nat) (result : AppletResult)
  | skipped (path : List Nat)
  deriving DecidableEq, Repr

def Told.path : Told → List Nat
  | started path | ended path _ | skipped path => path

def Entry.told? : Entry → Option Told
  | .notice _ .started path _ _ => some (.started path)
  | .notice _ .terminated path _ run =>
    some (.ended path (run.slate.result.getD (.empty true)))
  | .notice _ .skipped path _ _ => some (.skipped path)
  | _ => none

def Journal.told (j : Journal) : List Told := j.filterMap Entry.told?

def skips (path : List Nat) (i : Nat) : List Applet → List Told
  | [] => []
  | _ :: rest => .skipped (path ++ [i]) :: skips path (i + 1) rest

def Mode.cuts (mode : Mode) (child : Applet) (result : AppletResult) : Bool :=
  mode == .guard && !result.isSuccessful && !child.flowKind?.any FlowKind.steersChain

/- What a flow hands up, the last result among its children being this one. With a selector it may
publish its target instead, but not if that child has failed. -/
structure FlowSpec.Hands (spec : FlowSpec) (last : Option AppletResult) (r : AppletResult) :
    Prop where
  plain : spec.selector = none → r = last.getD (.empty true)
  failed : ∀ f, last = some f → f.isSuccessful = false → r = f

mutual
/- What is told of a visit, and its result if it has come to its end. -/
inductive Tale : Mode → List Nat → Applet → List Told → Option AppletResult → Prop where
  | ahead {mode path a} : Tale mode path a [] none
  | leafOpen {mode path a} (leaf : a.flowKind? = none) : Tale mode path a [.started path] none
  | leaf {mode path a} (leaf : a.flowKind? = none) (r : AppletResult) :
      Tale mode path a [.started path, .ended path r] (some r)
  | unavailable {mode path info spec children} (selective : spec.selector ≠ none) :
      Tale mode path (.flow info spec children)
        (.started path :: skips path 0 children ++ [.ended path (.empty false)])
        (some (.empty false))
  | flowOpen {mode path info spec children ts}
      (inner : Tales (spec.kind.mode mode) path .idle none 0 children ts none) :
      Tale mode path (.flow info spec children) (.started path :: ts) none
  | flow {mode path info spec children ts last r}
      (inner : Tales (spec.kind.mode mode) path .idle none 0 children ts (some last))
      (passed : spec.Hands last r) :
      Tale mode path (.flow info spec children) (.started path :: ts ++ [.ended path r]) (some r)

/- What is told of the children from place `i` on, and the last result if there are no more. -/
inductive Tales : Mode → List Nat → Chain → Option AppletResult → Nat → List Applet →
    List Told → Option (Option AppletResult) → Prop where
  | ahead {mode path chain last i children} : Tales mode path chain last i children [] none
  | done {mode path chain last i} : Tales mode path chain last i [] [] (some last)
  | skip {mode path chain last i child rest ts out}
      (plan : chain.plan child.flowKind? = .skip)
      (later : Tales mode path chain last (i + 1) rest ts out) :
      Tales mode path chain last i (child :: rest) (.skipped (path ++ [i]) :: ts) out
  | orphan {mode path chain last i child rest ts out}
      (plan : chain.plan child.flowKind? = .orphan)
      (later : Tales mode path .idle last (i + 1) rest ts out) :
      Tales mode path chain last i (child :: rest) (.skipped (path ++ [i]) :: ts) out
  | visiting {mode path chain last i child rest ts}
      (plan : chain.plan child.flowKind? = .evaluate)
      (inner : Tale mode (path ++ [i]) child ts none) :
      Tales mode path chain last i (child :: rest) ts none
  | visited {mode path chain last i child rest front r ts out}
      (plan : chain.plan child.flowKind? = .evaluate)
      (inner : Tale mode (path ++ [i]) child front (some r)) (onward : mode.cuts child r = false)
      (later : Tales mode path (.after child.flowKind? r.isSuccessful) (some r) (i + 1) rest ts
        out) :
      Tales mode path chain last i (child :: rest) (front ++ ts) out
  | cut {mode path chain last i child rest front r}
      (plan : chain.plan child.flowKind? = .evaluate)
      (inner : Tale mode (path ++ [i]) child front (some r)) (stop : mode.cuts child r = true) :
      Tales mode path chain last i (child :: rest) (front ++ skips path (i + 1) rest)
        (some (some r))
end

theorem skipsWithin {path : List Nat} {i : Nat} {children : List Applet} {t : Told}
    (inside : t ∈ skips path i children) :
    ∃ k, i ≤ k ∧ k < i + children.length ∧ t = .skipped (path ++ [k]) := by
  induction children generalizing i with
  | nil => simp [skips] at inside
  | cons child rest ih =>
    rcases List.mem_cons.mp inside with rfl | behind
    · exact ⟨i, by omega, by simp, rfl⟩
    · obtain ⟨k, low, high, same⟩ := ih behind
      exact ⟨k, by omega, by simp; omega, same⟩

theorem talesWithin {mode path chain last i children ts out}
    (within : ∀ c ∈ children, ∀ mode path ts r, Tale mode path c ts r → ∀ t ∈ ts, path <+: t.path)
    (tales : Tales mode path chain last i children ts out) {t : Told} (inside : t ∈ ts) :
    ∃ k, i ≤ k ∧ path ++ [k] <+: t.path := by
  induction children generalizing chain last i ts with
  | nil => cases tales <;> simp at inside
  | cons child rest ih =>
    have here : ∀ mode path ts r, Tale mode path child ts r → ∀ t ∈ ts, path <+: t.path :=
      within child List.mem_cons_self
    have behind {chain last ts} (tales : Tales mode path chain last (i + 1) rest ts out)
        (inside : t ∈ ts) : ∃ k, i ≤ k ∧ path ++ [k] <+: t.path := by
      obtain ⟨k, low, below⟩ := ih (fun c inside => within c (List.mem_cons_of_mem child inside))
        tales inside
      exact ⟨k, by omega, below⟩
    cases tales with
    | ahead => simp at inside
    | skip plan later | orphan plan later =>
      rcases List.mem_cons.mp inside with rfl | inside
      · exact ⟨i, Nat.le_refl i, List.prefix_rfl⟩
      · exact behind later inside
    | visiting plan inner => exact ⟨i, Nat.le_refl i, here _ _ _ _ inner t inside⟩
    | visited plan inner goes later =>
      rcases List.mem_append.mp inside with inside | inside
      · exact ⟨i, Nat.le_refl i, here _ _ _ _ inner t inside⟩
      · exact behind later inside
    | cut plan inner stop =>
      rcases List.mem_append.mp inside with inside | inside
      · exact ⟨i, Nat.le_refl i, here _ _ _ _ inner t inside⟩
      · obtain ⟨k, low, -, rfl⟩ := skipsWithin inside
        exact ⟨k, by omega, List.prefix_rfl⟩

theorem taleWithin {mode path a ts r} (tale : Tale mode path a ts r) :
    ∀ t ∈ ts, path <+: t.path := by
  induction a using Applet.byChildren generalizing mode path ts r with
  | criterion info check | action info action | wait info wait =>
    cases tale <;> simp [Told.path]
  | flow info spec children ih =>
    have within (c : Applet) (inside : c ∈ children) (mode path ts r)
        (tale : Tale mode path c ts r) : ∀ t ∈ ts, path <+: t.path := ih c inside tale
    have inner {mode chain last i ts out} (tales : Tales mode path chain last i children ts out)
        (t : Told) (inside : t ∈ ts) : path <+: t.path := by
      obtain ⟨k, -, below⟩ := talesWithin within tales inside
      exact (List.prefix_append path [k]).trans below
    have around {ts : List Told} (inner : ∀ t ∈ ts, path <+: t.path) (r : AppletResult) :
        ∀ t ∈ .started path :: ts ++ [.ended path r], path <+: t.path := by
      intro t inside
      simp only [List.cons_append, List.mem_cons, List.mem_append, List.not_mem_nil, or_false]
        at inside
      rcases inside with rfl | inside | rfl
      · exact List.prefix_rfl
      · exact inner t inside
      · exact List.prefix_rfl
    cases tale with
    | ahead => simp
    | leafOpen leaf | leaf leaf => cases leaf
    | unavailable selective =>
      refine around (fun t inside => ?_) _
      obtain ⟨k, -, -, rfl⟩ := skipsWithin inside
      exact List.prefix_append path [k]
    | flowOpen tales =>
      intro t inside
      rcases List.mem_cons.mp inside with rfl | inside
      · exact List.prefix_rfl
      · exact inner tales t inside
    | flow tales passed => exact around (inner tales) _

theorem talesBelow {mode path chain last i children ts out}
    (tales : Tales mode path chain last i children ts out) {t : Told} (inside : t ∈ ts) :
    ∃ k, i ≤ k ∧ path ++ [k] <+: t.path :=
  talesWithin (fun _ _ _ _ _ _ tale => taleWithin tale) tales inside

theorem taleShape {mode path a ts r} (tale : Tale mode path a ts r) :
    ∃ inner : List Told, (∀ t ∈ inner, ∃ k, path ++ [k] <+: t.path) ∧
      match r with
      | some r => ts = .started path :: inner ++ [.ended path r]
      | none => ts = [] ∨ ts = .started path :: inner := by
  have below {mode chain last i children ts out}
      (tales : Tales mode path chain last i children ts out) (t : Told) (inside : t ∈ ts) :
      ∃ k, path ++ [k] <+: t.path := by
    obtain ⟨k, -, under⟩ := talesBelow tales inside
    exact ⟨k, under⟩
  cases tale with
  | ahead => exact ⟨[], by simp, .inl rfl⟩
  | leafOpen leaf => exact ⟨[], by simp, .inr rfl⟩
  | leaf leaf r => exact ⟨[], by simp, rfl⟩
  | unavailable selective =>
    refine ⟨_, fun t inside => ?_, rfl⟩
    obtain ⟨k, -, -, rfl⟩ := skipsWithin inside
    exact ⟨k, List.prefix_rfl⟩
  | flowOpen tales => exact ⟨_, below tales, .inr rfl⟩
  | flow tales passed => exact ⟨_, below tales, rfl⟩

theorem taleNotSkipped {mode path a ts r} (tale : Tale mode path a ts r) : .skipped path ∉ ts := by
  obtain ⟨inner, deeper, shape⟩ := taleShape tale
  have none : .skipped path ∉ inner := by
    intro inside
    obtain ⟨k, below⟩ := deeper _ inside
    exact childBelow below rfl
  cases r with
  | some r => simp [shape, none]
  | none => rcases shape with rfl | rfl <;> simp [none]

theorem taleEnded {mode path a ts r} (tale : Tale mode path a ts (some r)) :
    .ended path r ∈ ts := by
  obtain ⟨inner, deeper, shape⟩ := taleShape tale
  rw [shape]
  exact List.mem_append_right _ List.mem_cons_self

theorem taleStarted {mode path a ts r} (tale : Tale mode path a ts (some r)) :
    .started path ∈ ts := by
  obtain ⟨inner, deeper, shape⟩ := taleShape tale
  rw [shape]
  exact List.mem_cons_self

theorem endedTale {mode path a ts r r'} (tale : Tale mode path a ts r)
    (ended : .ended path r' ∈ ts) : r = some r' := by
  obtain ⟨inner, deeper, shape⟩ := taleShape tale
  have none : .ended path r' ∉ inner := by
    intro inside
    obtain ⟨k, below⟩ := deeper _ inside
    exact childBelow below rfl
  cases r with
  | some r =>
    simp only [shape, List.cons_append, List.mem_cons, List.mem_append, reduceCtorEq, none,
      List.not_mem_nil, or_false, false_or, Told.ended.injEq, true_and] at ended
    rw [ended]
  | none => rcases shape with rfl | rfl <;> simp [none] at ended

def under (q : List Nat) (ts : List Told) : List Told := ts.filter fun t => q <+: t.path

@[simp] theorem underAppend (q : List Nat) (ts us : List Told) :
    under q (ts ++ us) = under q ts ++ under q us := List.filter_append ..

theorem underHere {q : List Nat} {t : Told} (below : q <+: t.path) (ts : List Told) :
    under q (t :: ts) = t :: under q ts := List.filter_cons_of_pos (by simpa using below)

theorem underElse {q : List Nat} {t : Told} (other : ¬ q <+: t.path) (ts : List Told) :
    under q (t :: ts) = under q ts := List.filter_cons_of_neg (by simpa using other)

theorem underAll {q : List Nat} {ts : List Told} (all : ∀ t ∈ ts, q <+: t.path) : under q ts = ts :=
  List.filter_eq_self.mpr fun t inside => by simpa using all t inside

theorem underNone {q : List Nat} {ts : List Told} (none : ∀ t ∈ ts, ¬ q <+: t.path) :
    under q ts = [] := List.filter_eq_nil_iff.mpr fun t inside => by simpa using none t inside

theorem underUnder {q p : List Nat} (below : q <+: p) (ts : List Told) :
    under p (under q ts) = under p ts := by
  unfold under
  rw [List.filter_filter]
  refine List.filter_congr fun t _ => ?_
  by_cases inside : p <+: t.path
  · simp [inside, below.trans inside]
  · simp [inside]

theorem memUnder {q : List Nat} {ts : List Told} {t : Told} :
    t ∈ under q ts ↔ t ∈ ts ∧ q <+: t.path := by simp [under]

theorem underEarlier {mode path chain last i children ts out k}
    (tales : Tales mode path chain last i children ts out) (earlier : k < i) :
    under (path ++ [k]) ts = [] := by
  refine underNone fun t inside below => ?_
  obtain ⟨j, low, below'⟩ := talesBelow tales inside
  have same := childrenApart below below'
  omega

theorem taleElse {mode path child front r i k t} (inner : Tale mode (path ++ [i]) child front r)
    (other : k ≠ i) (own : t.path = path ++ [k]) : t ∉ front := by
  intro inside
  have below := taleWithin inner t inside
  rw [own] at below
  exact other (childrenApart List.prefix_rfl below)

theorem talesElse {mode path chain last i children ts out k t}
    (tales : Tales mode path chain last i children ts out) (earlier : k < i)
    (own : t.path = path ++ [k]) : t ∉ ts := by
  intro inside
  obtain ⟨j, low, below⟩ := talesBelow tales inside
  rw [own] at below
  have same := childrenApart List.prefix_rfl below
  omega

theorem underSkipsEarlier (path : List Nat) {i k : Nat} (children : List Applet) (earlier : k < i) :
    under (path ++ [k]) (skips path i children) = [] := by
  refine underNone fun t inside below => ?_
  obtain ⟨j, low, -, rfl⟩ := skipsWithin inside
  have same := childrenApart below List.prefix_rfl
  omega

theorem underSkipped (path : List Nat) (i : Nat) (ts : List Told) :
    under (path ++ [i]) (.skipped (path ++ [i]) :: ts) =
      .skipped (path ++ [i]) :: under (path ++ [i]) ts :=
  underHere (t := .skipped (path ++ [i])) List.prefix_rfl ts

theorem siblingElse {path : List Nat} {i k : Nat} (other : k ≠ i) :
    ¬ path ++ [k] <+: (Told.skipped (path ++ [i])).path :=
  fun below => other (childrenApart below List.prefix_rfl)

theorem underSkips (path : List Nat) (i k : Nat) (children : List Applet) :
    under (path ++ [k]) (skips path i children) = [] ∨
      under (path ++ [k]) (skips path i children) = [.skipped (path ++ [k])] := by
  induction children generalizing i with
  | nil => exact .inl rfl
  | cons child rest ih =>
    by_cases here : k = i
    · subst here
      rw [skips, underSkipped, underSkipsEarlier path rest (by omega)]
      exact .inr rfl
    · rw [skips, underElse (siblingElse here)]
      exact ih (i + 1)

theorem talesChild {mode path chain last i children ts out k child}
    (tales : Tales mode path chain last i children ts out) (found : children[k]? = some child) :
    under (path ++ [i + k]) ts = [] ∨ under (path ++ [i + k]) ts = [.skipped (path ++ [i + k])] ∨
      ∃ r, Tale mode (path ++ [i + k]) child (under (path ++ [i + k]) ts) r ∧
        (out.isSome → r.isSome) := by
  induction children generalizing chain last i ts k with
  | nil => simp at found
  | cons first rest ih =>
    cases k with
    | zero =>
      cases Option.some.inj found
      rw [Nat.add_zero]
      have own {front r} (inner : Tale mode (path ++ [i]) child front r) :
          under (path ++ [i]) front = front := underAll (taleWithin inner)
      cases tales with
      | ahead => exact .inl rfl
      | skip plan later | orphan plan later =>
        rw [underSkipped, underEarlier later (by omega)]
        exact .inr (.inl rfl)
      | visiting plan inner =>
        rw [own inner]
        exact .inr (.inr ⟨none, inner, id⟩)
      | visited plan inner goes later =>
        rw [underAppend, own inner, underEarlier later (by omega), List.append_nil]
        exact .inr (.inr ⟨_, inner, fun _ => rfl⟩)
      | cut plan inner stop =>
        rw [underAppend, own inner, underSkipsEarlier path rest (by omega), List.append_nil]
        exact .inr (.inr ⟨_, inner, fun _ => rfl⟩)
    | succ k =>
      have behind : i + (k + 1) = i + 1 + k := by omega
      have other {front r} (inner : Tale mode (path ++ [i]) first front r) :
          under (path ++ [i + 1 + k]) front = [] := by
        refine underNone fun t inside below => ?_
        have same := childrenApart below (taleWithin inner t inside)
        omega
      rw [behind]
      cases tales with
      | ahead => exact .inl rfl
      | skip plan later | orphan plan later =>
        rw [underElse (siblingElse (by omega))]
        exact ih later found
      | visiting plan inner => exact .inl (other inner)
      | visited plan inner goes later =>
        rw [underAppend, other inner, List.nil_append]
        exact ih later found
      | cut plan inner stop =>
        rw [underAppend, other inner, List.nil_append]
        rcases underSkips path (i + 1) (i + 1 + k) rest with none | skipped
        · exact .inl none
        · exact .inr (.inl skipped)

theorem underStarted (path : List Nat) (k : Nat) (ts : List Told) :
    under (path ++ [k]) (.started path :: ts) = under (path ++ [k]) ts :=
  underElse (t := .started path) (fun below => childBelow below rfl) ts

theorem underAround (path : List Nat) (k : Nat) (ts : List Told) (r : AppletResult) :
    under (path ++ [k]) (.started path :: ts ++ [.ended path r]) = under (path ++ [k]) ts := by
  have last : under (path ++ [k]) [Told.ended path r] = [] :=
    underElse (t := .ended path r) (fun below => childBelow below rfl) []
  rw [underAppend, underStarted, last, List.append_nil]

theorem atAppend (a : Applet) (p q : List Nat) : a.at? (p ++ q) = (a.at? p).bind (Applet.at? q) := by
  induction p generalizing a with
  | nil => rfl
  | cons i p ih =>
    rw [List.cons_append, Applet.at?, Applet.at?, Option.bind_assoc]
    exact Option.bind_congr fun child _ => ih child

theorem atChild {a : Applet} {path : List Nat} {info : AppletInfo} {spec : FlowSpec}
    {children : List Applet} {k : Nat} {child : Applet}
    (located : a.at? path = some (.flow info spec children)) (found : children[k]? = some child) :
    a.at? (path ++ [k]) = some child := by
  rw [atAppend, located]
  simp [Applet.at?, Applet.children, found]

theorem atParent {a : Applet} {path : List Nat} {k : Nat} {child : Applet}
    (located : a.at? (path ++ [k]) = some child) :
    ∃ info spec children, a.at? path = some (.flow info spec children) ∧
      children[k]? = some child := by
  rw [atAppend] at located
  obtain ⟨parent, place, inside⟩ := Option.bind_eq_some_iff.mp located
  obtain ⟨c, found, same⟩ := Option.bind_eq_some_iff.mp inside
  obtain rfl : c = child := Option.some.inj same
  cases parent with
  | flow info spec children => exact ⟨info, spec, children, place, found⟩
  | _ => simp [Applet.children] at found

def Applet.modeAt : List Nat → Mode → Applet → Mode
  | i :: path, mode, .flow _ spec children =>
    (children[i]?).elim mode (modeAt path (spec.kind.mode mode))
  | _, mode, _ => mode

theorem modeAtChild {a : Applet} {path : List Nat} {info : AppletInfo} {spec : FlowSpec}
    {children : List Applet} {k : Nat} {child : Applet} {mode : Mode}
    (located : a.at? path = some (.flow info spec children)) (found : children[k]? = some child) :
    a.modeAt (path ++ [k]) mode = spec.kind.mode (a.modeAt path mode) := by
  induction path generalizing a mode with
  | nil =>
    cases Option.some.inj located
    rw [List.nil_append, Applet.modeAt, found]
    cases child <;> rfl
  | cons i path ih =>
    obtain ⟨first, place, inside⟩ := Option.bind_eq_some_iff.mp located
    cases a with
    | flow info' spec' children' =>
      have place : children'[i]? = some first := place
      simp only [List.cons_append, Applet.modeAt, place, Option.elim_some]
      exact ih inside
    | _ => simp [Applet.children] at place

theorem taleChild {mode path info spec children ts r k child}
    (tale : Tale mode path (.flow info spec children) ts r) (found : children[k]? = some child) :
    under (path ++ [k]) ts = [] ∨ under (path ++ [k]) ts = [.skipped (path ++ [k])] ∨
      ∃ r', Tale (spec.kind.mode mode) (path ++ [k]) child (under (path ++ [k]) ts) r' ∧
        (r.isSome → r'.isSome) := by
  have inner {chain last us out} (tales : Tales (spec.kind.mode mode) path chain last 0 children us
      out) := talesChild tales found
  simp only [Nat.zero_add] at inner
  cases tale with
  | ahead => exact .inl rfl
  | leafOpen leaf | leaf leaf => cases leaf
  | unavailable selective =>
    rw [underAround]
    rcases underSkips path 0 k children with none | skipped
    · exact .inl none
    · exact .inr (.inl skipped)
  | flowOpen tales =>
    rw [underStarted]
    exact inner tales
  | flow tales passed =>
    rw [underAround]
    exact inner tales

theorem taleAt {mode path a ts r q b} (tale : Tale mode path a ts r) (located : a.at? q = some b) :
    under (path ++ q) ts = [] ∨ under (path ++ q) ts = [.skipped (path ++ q)] ∨
      ∃ r', Tale (a.modeAt q mode) (path ++ q) b (under (path ++ q) ts) r' ∧
        (r.isSome → r'.isSome) := by
  induction q generalizing mode path a ts r with
  | nil =>
    obtain rfl : a = b := Option.some.inj located
    have same : a.modeAt [] mode = mode := by cases a <;> rfl
    rw [same, List.append_nil, underAll (taleWithin tale)]
    exact .inr (.inr ⟨r, tale, id⟩)
  | cons k q ih =>
    obtain ⟨child, found, inside⟩ := Option.bind_eq_some_iff.mp located
    cases a with
    | criterion info check | action info action | wait info wait => simp [Applet.children] at found
    | flow info spec children =>
      have found : children[k]? = some child := found
      have deeper : path ++ k :: q = (path ++ [k]) ++ q := by simp
      have below : path ++ [k] <+: path ++ k :: q := by
        rw [deeper]
        exact List.prefix_append _ _
      rw [Applet.modeAt, found, Option.elim_some, ← underUnder below ts]
      rcases taleChild tale found with none | skipped | ⟨r', tale, ends⟩
      · rw [none]
        exact .inl rfl
      · rw [skipped]
        cases q with
        | nil => exact .inr (.inl (underSkipped path k []))
        | cons j q =>
          refine .inl (underElse (fun deep => ?_) [])
          have short := deep.length_le
          simp [Told.path] at short
      · rw [deeper]
        rcases ih tale inside with none | skipped | ⟨r'', tale, ends'⟩
        · exact .inl none
        · exact .inr (.inl skipped)
        · exact .inr (.inr ⟨r'', tale, fun whole => ends' (ends whole)⟩)

theorem underSkipsTogether (path : List Nat) (i k : Nat) (children : List Applet) :
    under (path ++ [k]) (skips path i children) <:+: skips path i children := by
  rcases underSkips path i k children with none | skipped
  · rw [none]
    exact List.nil_infix
  · have inside : .skipped (path ++ [k]) ∈ under (path ++ [k]) (skips path i children) := by
      rw [skipped]
      exact List.mem_cons_self
    rw [skipped, List.singleton_infix_iff]
    exact (memUnder.mp inside).1

theorem talesTogether {mode path chain last i children ts out} (k : Nat)
    (tales : Tales mode path chain last i children ts out) :
    under (path ++ [i + k]) ts <:+: ts := by
  induction children generalizing chain last i ts k with
  | nil => cases tales <;> exact List.nil_infix
  | cons first rest ih =>
    have own {front r} (inner : Tale mode (path ++ [i]) first front r) :
        under (path ++ [i]) front = front := underAll (taleWithin inner)
    have other {front r k} (inner : Tale mode (path ++ [i]) first front r) :
        under (path ++ [i + 1 + k]) front = [] := by
      refine underNone fun t inside below => ?_
      have same := childrenApart below (taleWithin inner t inside)
      omega
    cases k with
    | zero =>
      rw [Nat.add_zero]
      cases tales with
      | ahead => exact List.nil_infix
      | skip plan later | orphan plan later =>
        rw [underSkipped, underEarlier later (by omega)]
        exact (List.prefix_append [_] _).isInfix
      | visiting plan inner => rw [own inner]
      | visited plan inner goes later =>
        rw [underAppend, own inner, underEarlier later (by omega), List.append_nil]
        exact (List.prefix_append _ _).isInfix
      | cut plan inner stop =>
        rw [underAppend, own inner, underSkipsEarlier path rest (by omega), List.append_nil]
        exact (List.prefix_append _ _).isInfix
    | succ k =>
      rw [show i + (k + 1) = i + 1 + k by omega]
      cases tales with
      | ahead => exact List.nil_infix
      | skip plan later | orphan plan later =>
        rw [underElse (siblingElse (by omega))]
        exact (ih k later).trans (List.suffix_cons _ _).isInfix
      | visiting plan inner =>
        rw [other inner]
        exact List.nil_infix
      | visited plan inner goes later =>
        rw [underAppend, other inner, List.nil_append]
        exact (ih k later).trans (List.suffix_append _ _).isInfix
      | cut plan inner stop =>
        rw [underAppend, other inner, List.nil_append]
        exact (underSkipsTogether path _ _ rest).trans (List.suffix_append _ _).isInfix

theorem childTogether {mode path a ts r} (k : Nat) (tale : Tale mode path a ts r) :
    under (path ++ [k]) ts <:+: ts := by
  have inner {mode chain last us out children}
      (tales : Tales mode path chain last 0 children us out) : under (path ++ [k]) us <:+: us := by
    simpa only [Nat.zero_add] using talesTogether k tales
  have around (us : List Told) (r : AppletResult) :
      us <:+: .started path :: us ++ [.ended path r] := ⟨[.started path], [.ended path r], rfl⟩
  have leaf {us : List Told} (own : ∀ t ∈ us, t.path = path) :
      under (path ++ [k]) us <:+: us := by
    rw [underNone fun t inside below => childBelow below (own t inside)]
    exact List.nil_infix
  cases tale with
  | ahead => exact List.nil_infix
  | leafOpen _ | leaf _ _ => exact leaf (by simp [Told.path])
  | unavailable selective =>
    rw [underAround]
    exact (underSkipsTogether path 0 k _).trans (around _ _)
  | flowOpen tales =>
    rw [underStarted]
    exact (inner tales).trans (List.suffix_cons _ _).isInfix
  | flow tales passed =>
    rw [underAround]
    exact (inner tales).trans (around _ _)

theorem taleTogether {mode path a ts r q b} (tale : Tale mode path a ts r)
    (located : a.at? q = some b) : under (path ++ q) ts <:+: ts := by
  induction q generalizing mode path a ts r with
  | nil =>
    rw [List.append_nil, underAll (taleWithin tale)]
  | cons k q ih =>
    obtain ⟨child, found, inside⟩ := Option.bind_eq_some_iff.mp located
    cases a with
    | criterion info check | action info action | wait info wait => simp [Applet.children] at found
    | flow info spec children =>
      have deeper : path ++ k :: q = (path ++ [k]) ++ q := by simp
      have below : path ++ [k] <+: path ++ k :: q := by
        rw [deeper]
        exact List.prefix_append _ _
      refine List.IsInfix.trans ?_ (childTogether k tale)
      rw [← underUnder below ts]
      rcases taleChild tale found with none | skipped | ⟨r', tale, -⟩
      · rw [none]
        exact List.nil_infix
      · rw [skipped]
        by_cases here : path ++ k :: q <+: (Told.skipped (path ++ [k])).path
        · rw [underHere here]
          exact List.infix_rfl
        · rw [underElse here]
          exact List.nil_infix
      · rw [deeper]
        exact ih tale inside

theorem taleOf {mode a ts r q b t} (tale : Tale mode [] a ts r) (located : a.at? q = some b)
    (inside : t ∈ ts) (below : q <+: t.path) (other : t ≠ .skipped q) :
    ∃ r', Tale (a.modeAt q mode) q b (under q ts) r' ∧ (r.isSome → r'.isSome) := by
  have here : t ∈ under q ts := memUnder.mpr ⟨inside, below⟩
  rcases taleAt tale located with none | skipped | whole
  · rw [List.nil_append] at none
    simp [none] at here
  · rw [List.nil_append] at skipped
    simp [skipped, other] at here
  · exact whole

theorem skippedAlone {mode a ts r q b} (tale : Tale mode [] a ts r) (located : a.at? q = some b)
    (skipped : .skipped q ∈ ts) : under q ts = [.skipped q] := by
  have here : .skipped q ∈ under q ts := memUnder.mpr ⟨skipped, List.prefix_rfl⟩
  rcases taleAt tale located with none | alone | ⟨r', tale, -⟩
  · rw [List.nil_append] at none
    simp [none] at here
  · rwa [List.nil_append] at alone
  · rw [List.nil_append] at tale
    exact absurd here (taleNotSkipped tale)

theorem endedStarted {mode a ts r q b r'} (tale : Tale mode [] a ts r) (located : a.at? q = some b)
    (ended : .ended q r' ∈ ts) : .started q ∈ ts := by
  obtain ⟨r'', own, -⟩ := taleOf tale located ended List.prefix_rfl (by simp)
  obtain rfl : r'' = some r' := endedTale own (memUnder.mpr ⟨ended, List.prefix_rfl⟩)
  exact (memUnder.mp (taleStarted own)).1

theorem endedOnce {mode a ts r q b r₁ r₂} (tale : Tale mode [] a ts r)
    (located : a.at? q = some b) (first : .ended q r₁ ∈ ts) (second : .ended q r₂ ∈ ts) :
    r₁ = r₂ := by
  obtain ⟨r', own, -⟩ := taleOf tale located first List.prefix_rfl (by simp)
  have came (r) (ended : .ended q r ∈ ts) : r' = some r :=
    endedTale own (memUnder.mpr ⟨ended, List.prefix_rfl⟩)
  exact Option.some.inj ((came r₁ first).symm.trans (came r₂ second))

theorem startedEnded {mode a ts r q b} (tale : Tale mode [] a ts (some r))
    (located : a.at? q = some b) (started : .started q ∈ ts) : ∃ r', .ended q r' ∈ ts := by
  obtain ⟨r', tale, whole⟩ := taleOf tale located started List.prefix_rfl (by simp)
  obtain ⟨r', rfl⟩ := Option.isSome_iff_exists.mp (whole rfl)
  exact ⟨r', (memUnder.mp (taleEnded tale)).1⟩

end Automation
