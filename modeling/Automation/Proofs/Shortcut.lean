import Automation.Proofs.Owner
import Automation.Proofs.Places
import Automation.Proofs.Telling
/-! Conjunctions are cut short. In a guard, and in the containers and placeholders that it is made
of, the first child to fail is the last one evaluated, unless it steers a chain; the others are
skipped, and the failure is handed up to the guard. In blocks, catch-alls and roots a child is
skipped for the sake of its chain only. -/
namespace Automation

/- A failing child cuts the flow at this path short: it is a guard, or stands in one with nothing
but containers and placeholders in between. -/
inductive Guarded (tree : Applet) : List Nat → Prop where
  | guard {path info spec children} (located : tree.at? path = some (.flow info spec children))
      (kind : spec.kind.isGuard = true) : Guarded tree path
  | within {path k info spec children} (outer : Guarded tree path)
      (located : tree.at? (path ++ [k]) = some (.flow info spec children))
      (kind : spec.kind.isTransparent = true) : Guarded tree (path ++ [k])

/- What is told when child `k` of the flow at this path has failed with `r`, until the guard around
it ends: flow by flow, the children behind are skipped and the flow ends with `r`. -/
inductive Climbs (tree : Applet) (r : AppletResult) : List Nat → Nat → List Told → Prop where
  | guard {path k info spec children} (located : tree.at? path = some (.flow info spec children))
      (kind : spec.kind.isGuard = true) :
      Climbs tree r path k (skips path (k + 1) (children.drop (k + 1)) ++ [.ended path r])
  | within {path j k info spec children ts} (later : Climbs tree r path j ts)
      (located : tree.at? (path ++ [j]) = some (.flow info spec children))
      (kind : spec.kind.isTransparent = true) :
      Climbs tree r (path ++ [j]) k
        (skips (path ++ [j]) (k + 1) (children.drop (k + 1)) ++ .ended (path ++ [j]) r :: ts)

def ByPlace (path : List Nat) (ts : List Told) : Prop :=
  ts.Pairwise fun t u => ∀ i j, path ++ [i] <+: t.path → path ++ [j] <+: u.path → i ≤ j

/- The state of the chain behind these children, the first of which stands at place `i`, where
`success` says which of the evaluated ones have succeeded. -/
def Chain.behind (success : Nat → Bool) : Nat → Chain → List Applet → Chain
  | _, chain, [] => chain
  | i, chain, child :: rest =>
    let next := match chain.plan child.flowKind? with
      | .evaluate => .after child.flowKind? (success i)
      | .skip => chain
      | .orphan => .idle
    behind success (i + 1) next rest

def succeeds (path : List Nat) (ts : List Told) (i : Nat) : Bool :=
  ts.any fun t => match t with
    | .ended q r => q == path ++ [i] && r.isSuccessful
    | _ => false

section
variable {path : List Nat} {i k : Nat} {children rest : List Applet} {child : Applet}
  {ts front back : List Told} {mode : Mode} {chain : Chain} {last : Option AppletResult}
  {out : Option (Option AppletResult)} {r : AppletResult} {t : Told}

theorem memSkips (path : List Nat) (low : i ≤ k) (high : k < i + children.length) :
    .skipped (path ++ [k]) ∈ skips path i children := by
  induction children generalizing i with
  | nil => simp at high; omega
  | cons child rest ih =>
    rcases Nat.eq_or_lt_of_le low with rfl | low
    · exact List.mem_cons_self
    · refine List.mem_cons_of_mem _ (ih low ?_)
      rw [List.length_cons] at high
      omega

theorem talesPassed (tales : Tales mode path chain last i children ts out) (inside : t ∈ ts)
    (below : path ++ [i + k] <+: t.path) {j : Nat} (earlier : j < k) :
    .skipped (path ++ [i + j]) ∈ ts ∨ ∃ r, .ended (path ++ [i + j]) r ∈ ts := by
  induction children generalizing chain last i ts k j with
  | nil => cases tales <;> simp at inside
  | cons child rest ih =>
    obtain ⟨k, rfl⟩ : ∃ k', k = k' + 1 := ⟨k - 1, by omega⟩
    rw [show i + (k + 1) = i + 1 + k by omega] at below
    have skippedElse : t ≠ .skipped (path ++ [i]) := by
      rintro rfl
      have same := childrenApart below List.prefix_rfl
      omega
    have other {front r} (inner : Tale mode (path ++ [i]) child front r) : t ∉ front := by
      intro inside
      have same := childrenApart below (taleWithin inner t inside)
      omega
    cases tales with
    | ahead => simp at inside
    | skip plan later | orphan plan later =>
      have inside := (List.mem_cons.mp inside).resolve_left skippedElse
      cases j with
      | zero => exact .inl List.mem_cons_self
      | succ j =>
        rw [show i + (j + 1) = i + 1 + j by omega]
        rcases ih later inside below (Nat.lt_of_succ_lt_succ earlier) with skipped | ⟨r, ended⟩
        · exact .inl (List.mem_cons_of_mem _ skipped)
        · exact .inr ⟨r, List.mem_cons_of_mem _ ended⟩
    | visiting plan inner => exact absurd inside (other inner)
    | visited plan inner goes later =>
      have inside := (List.mem_append.mp inside).resolve_left (other inner)
      cases j with
      | zero => exact .inr ⟨_, List.mem_append_left _ (taleEnded inner)⟩
      | succ j =>
        rw [show i + (j + 1) = i + 1 + j by omega]
        rcases ih later inside below (Nat.lt_of_succ_lt_succ earlier) with skipped | ⟨r, ended⟩
        · exact .inl (List.mem_append_right _ skipped)
        · exact .inr ⟨r, List.mem_append_right _ ended⟩
    | cut plan inner stop =>
      have inside := (List.mem_append.mp inside).resolve_left (other inner)
      obtain ⟨k', low, high, rfl⟩ := skipsWithin inside
      have same := childrenApart below List.prefix_rfl
      cases j with
      | zero => exact .inr ⟨_, List.mem_append_left _ (taleEnded inner)⟩
      | succ j => exact .inl (List.mem_append_right _ (memSkips path (by omega) (by omega)))

theorem byPlaceAppend (own : ∀ t ∈ front, path ++ [i] <+: t.path)
    (behind : ∀ t ∈ back, ∃ k, i + 1 ≤ k ∧ path ++ [k] <+: t.path) (later : ByPlace path back) :
    ByPlace path (front ++ back) := by
  refine List.pairwise_append.mpr ⟨?_, later, fun t here u there a b below below' => ?_⟩
  · refine List.Pairwise.imp_of_mem (fun here there _ a b below below' => ?_)
      (List.pairwise_of_forall fun _ _ => True.intro)
    have first := childrenApart below (own _ here)
    have second := childrenApart below' (own _ there)
    omega
  · obtain ⟨k, low, under⟩ := behind u there
    have first := childrenApart below (own t here)
    have second := childrenApart below' under
    omega

theorem skipsByPlace (path : List Nat) (i : Nat) (children : List Applet) :
    ByPlace path (skips path i children) := by
  induction children generalizing i with
  | nil => exact List.Pairwise.nil
  | cons child rest ih =>
    change ByPlace path ([.skipped (path ++ [i])] ++ skips path (i + 1) rest)
    refine byPlaceAppend (List.forall_mem_singleton.mpr List.prefix_rfl) (fun t inside => ?_)
      (ih (i + 1))
    obtain ⟨k, low, -, rfl⟩ := skipsWithin inside
    exact ⟨k, low, List.prefix_rfl⟩

theorem talesByPlace (tales : Tales mode path chain last i children ts out) : ByPlace path ts := by
  induction children generalizing chain last i ts with
  | nil => cases tales <;> exact List.Pairwise.nil
  | cons child rest ih =>
    cases tales with
    | ahead => exact List.Pairwise.nil
    | skip plan later | orphan plan later =>
      rw [← List.singleton_append]
      exact byPlaceAppend (List.forall_mem_singleton.mpr List.prefix_rfl)
        (fun t => talesBelow later) (ih later)
    | visiting plan inner =>
      rw [← List.append_nil ts]
      exact byPlaceAppend (taleWithin inner) (by simp) List.Pairwise.nil
    | visited plan inner goes later =>
      exact byPlaceAppend (taleWithin inner) (fun t => talesBelow later) (ih later)
    | cut plan inner stop =>
      refine byPlaceAppend (taleWithin inner) (fun t inside => ?_) (skipsByPlace path _ rest)
      obtain ⟨k, low, -, rfl⟩ := skipsWithin inside
      exact ⟨k, low, List.prefix_rfl⟩

theorem talesCut (tales : Tales .guard path chain last i children ts out)
    (found : children[k]? = some child)
    (plain : child.flowKind?.any FlowKind.steersChain = false) (failed : r.isSuccessful = false)
    (ended : .ended (path ++ [i + k]) r ∈ ts) :
    (∃ front, ts = front ++ (under (path ++ [i + k]) ts ++
      skips path (i + k + 1) (children.drop (k + 1)))) ∧ out = some (some r) := by
  -- By induction on the children up to the one that has failed, place by place.
  induction children generalizing chain last i ts k with
  | nil => simp at found
  | cons first rest ih =>
    have own {front r} (inner : Tale .guard (path ++ [i]) first front r) :
        under (path ++ [i]) front = front := underAll (taleWithin inner)
    cases k with
    | zero =>
      obtain rfl : first = child := Option.some.inj found
      have cuts : Mode.guard.cuts first r = true := by simp [Mode.cuts, plain, failed]
      rw [Nat.add_zero] at ended ⊢
      cases tales with
      | ahead => simp at ended
      | skip plan later | orphan plan later =>
        have inside := (List.mem_cons.mp ended).resolve_left (by simp)
        exact absurd inside (talesElse later (Nat.lt_succ_self i) rfl)
      | visiting plan inner => cases endedTale inner ended
      | visited plan inner goes later =>
        have inside := (List.mem_append.mp ended).resolve_right
          (talesElse later (Nat.lt_succ_self i) rfl)
        cases endedTale inner inside
        simp [cuts] at goes
      | cut plan inner stop =>
        have inside := (List.mem_append.mp ended).resolve_right fun behind => by
          obtain ⟨j, -, -, same⟩ := skipsWithin behind
          cases same
        cases endedTale inner inside
        refine ⟨⟨[], ?_⟩, rfl⟩
        rw [underAppend, own inner, underSkipsEarlier path rest (Nat.lt_succ_self i)]
        simp
    | succ k =>
      rw [show i + (k + 1) = i + 1 + k by omega] at ended ⊢
      have other {front r} (inner : Tale .guard (path ++ [i]) first front r) :
          under (path ++ [i + 1 + k]) front = [] := by
        refine underNone fun t inside below => ?_
        have same := childrenApart below (taleWithin inner t inside)
        omega
      cases tales with
      | ahead => simp at ended
      | skip plan later | orphan plan later =>
        have inside := (List.mem_cons.mp ended).resolve_left (by simp)
        obtain ⟨⟨front, whole⟩, came⟩ := ih later found inside
        rw [underElse (siblingElse (by omega))]
        refine ⟨⟨.skipped (path ++ [i]) :: front, ?_⟩, came⟩
        rw [List.cons_append, List.drop_succ_cons, ← whole]
      | visiting plan inner => exact absurd ended (taleElse inner (by omega) rfl)
      | @visited _ _ _ _ _ _ _ before r us _ plan inner goes later =>
        have inside := (List.mem_append.mp ended).resolve_left (taleElse inner (by omega) rfl)
        obtain ⟨⟨front, whole⟩, came⟩ := ih later found inside
        rw [underAppend, other inner, List.nil_append]
        refine ⟨⟨before ++ front, ?_⟩, came⟩
        rw [List.append_assoc, List.drop_succ_cons, ← whole]
      | cut plan inner stop =>
        have inside := (List.mem_append.mp ended).resolve_left (taleElse inner (by omega) rfl)
        obtain ⟨j, -, -, same⟩ := skipsWithin inside
        cases same

theorem talesPlanned {success : Nat → Bool}
    (agree : ∀ k r, k < i + children.length → .ended (path ++ [k]) r ∈ ts →
      success k = r.isSuccessful)
    (tales : Tales .aggregate path chain last i children ts out) (found : children[k]? = some child)
    (skipped : .skipped (path ++ [i + k]) ∈ ts) :
    (Chain.behind success i chain (children.take k)).plan child.flowKind? ≠ .evaluate := by
  induction children generalizing chain last i ts k with
  | nil => simp at found
  | cons first rest ih =>
    cases k with
    | zero =>
      cases Option.some.inj found
      rw [Nat.add_zero] at skipped
      rw [List.take_zero, Chain.behind]
      cases tales with
      | ahead => simp at skipped
      | skip plan later | orphan plan later =>
        rw [plan]
        simp
      | visiting plan inner => exact absurd skipped (taleNotSkipped inner)
      | visited plan inner goes later =>
        rcases List.mem_append.mp skipped with inside | inside
        · exact absurd inside (taleNotSkipped inner)
        · exact absurd inside (talesElse later (Nat.lt_succ_self i) rfl)
      | cut plan inner stop => cases stop
    | succ k =>
      rw [show i + (k + 1) = i + 1 + k by omega] at skipped
      have next {t : Told} (own : t = .skipped (path ++ [i])) :
          .skipped (path ++ [i + 1 + k]) ≠ t := by
        rintro rfl
        simp at own
        omega
      rw [List.length_cons, ← Nat.add_assoc, Nat.add_right_comm] at agree
      rw [List.take_succ_cons, Chain.behind]
      cases tales with
      | ahead => simp at skipped
      | skip plan later | orphan plan later =>
        have inside := (List.mem_cons.mp skipped).resolve_left (next rfl)
        simp only [plan]
        exact ih (fun k r known ended => agree k r known (List.mem_cons_of_mem _ ended)) later found
          inside
      | visiting plan inner => exact absurd skipped (taleElse inner (by omega) rfl)
      | visited plan inner goes later =>
        have inside := (List.mem_append.mp skipped).resolve_left (taleElse inner (by omega) rfl)
        simp only [plan, agree i _ (by omega) (List.mem_append_left _ (taleEnded inner))]
        exact ih (fun k r known ended => agree k r known (List.mem_append_right _ ended)) later found
          inside
      | cut plan inner stop => cases stop

theorem talesWhole {last' : Option AppletResult}
    (tales : Tales mode path chain last i children ts (some last'))
    (found : children[k]? = some child) :
    .skipped (path ++ [i + k]) ∈ ts ∨ ∃ r, .ended (path ++ [i + k]) r ∈ ts := by
  induction children generalizing chain last i ts k with
  | nil => simp at found
  | cons first rest ih =>
    cases k with
    | zero =>
      cases tales with
      | skip plan later | orphan plan later => exact .inl List.mem_cons_self
      | visited plan inner goes later => exact .inr ⟨_, List.mem_append_left _ (taleEnded inner)⟩
      | cut plan inner stop => exact .inr ⟨_, List.mem_append_left _ (taleEnded inner)⟩
    | succ k =>
      have known := (List.getElem?_eq_some_iff.mp found).1
      rw [List.length_cons] at known
      rw [show i + (k + 1) = i + 1 + k by omega]
      cases tales with
      | skip plan later | orphan plan later =>
        rcases ih later found with skipped | ⟨r, ended⟩
        · exact .inl (List.mem_cons_of_mem _ skipped)
        · exact .inr ⟨r, List.mem_cons_of_mem _ ended⟩
      | visited plan inner goes later =>
        rcases ih later found with skipped | ⟨r, ended⟩
        · exact .inl (List.mem_append_right _ skipped)
        · exact .inr ⟨r, List.mem_append_right _ ended⟩
      | cut plan inner stop =>
        exact .inl (List.mem_append_right _ (memSkips path (by omega) (by omega)))

end

section
variable {mode : Mode} {tree child : Applet} {path : List Nat} {info : AppletInfo}
  {spec : FlowSpec} {children : List Applet} {ts : List Told} {r₀ : Option AppletResult}
  {r : AppletResult} {i k : Nat}

structure Within (mode : Mode) (path : List Nat) (spec : FlowSpec) (children : List Applet)
    (ts us : List Told) (out : Option (Option AppletResult)) : Prop where
  tales : Tales (spec.kind.mode mode) path .idle none 0 children us out
  children : ∀ k t, t.path = path ++ [k] → (t ∈ ts ↔ t ∈ us)
  around : under path ts = .started path :: us ∧ out = none ∨
    ∃ last r, under path ts = .started path :: us ++ [.ended path r] ∧ out = some last ∧
      spec.Hands last r

theorem treeWithin {t : Told} (tale : Tale mode [] tree ts r₀)
    (located : tree.at? path = some (.flow info spec children)) (inside : t ∈ ts)
    (here : path <+: t.path) (other : t ≠ .skipped path)
    (available : spec.selector = none ∨ ∃ k r, .ended (path ++ [k]) r ∈ ts) :
    ∃ us out, Within (tree.modeAt path mode) path spec children ts us out := by
  have below (k : Nat) (t : Told) (own : t.path = path ++ [k]) : t ∈ ts ↔ t ∈ under path ts := by
    rw [memUnder, own]
    simp
  obtain ⟨r', inner, -⟩ := taleOf tale located inside here other
  have inside : t ∈ under path ts := memUnder.mpr ⟨inside, here⟩
  have deeper {k : Nat} {t : Told} (own : t.path = path ++ [k]) :
      t ≠ .started path ∧ ∀ r, t ≠ .ended path r := by
    constructor
    · rintro rfl
      simp [Told.path] at own
    · rintro r rfl
      simp [Told.path] at own
  generalize whole : under path ts = own at inner below inside
  cases inner with
  | ahead => simp at inside
  | leafOpen leaf | leaf leaf => cases leaf
  | unavailable selective =>
    rcases available with plain | ⟨k, r, ended⟩
    · exact absurd plain selective
    · rw [below k _ rfl] at ended
      have inside : Told.ended (path ++ [k]) r ∈ skips path 0 children := by simpa using ended
      obtain ⟨j, -, -, same⟩ := skipsWithin inside
      cases same
  | @flowOpen _ _ _ _ _ us tales =>
    refine ⟨us, none, tales, fun k t own => ?_, .inl ⟨whole, rfl⟩⟩
    rw [below k t own, List.mem_cons, or_iff_right (deeper own).1]
  | @flow _ _ _ _ _ us last r' tales passed =>
    refine ⟨us, some last, tales, fun k t own => ?_, .inr ⟨last, r', whole, rfl, passed⟩⟩
    rw [below k t own]
    simp [(deeper own).1, (deeper own).2]

theorem evaluatedWithin (tale : Tale mode [] tree ts r₀)
    (located : tree.at? path = some (.flow info spec children))
    (ended : .ended (path ++ [k]) r ∈ ts) :
    ∃ us out, Within (tree.modeAt path mode) path spec children ts us out :=
  treeWithin tale located ended (List.prefix_append path [k]) (by simp) (.inr ⟨k, r, ended⟩)

theorem withinEnded {us : List Told} {out : Option (Option AppletResult)}
    (within : Within mode path spec children ts us out) (ended : .ended path r ∈ ts) :
    ∃ last, out = some last ∧ spec.Hands last r := by
  have inside : .ended path r ∈ under path ts := memUnder.mpr ⟨ended, List.prefix_rfl⟩
  have other : .ended path r ∉ us := by
    intro inside
    obtain ⟨j, -, below⟩ := talesBelow within.tales inside
    exact childBelow below rfl
  rcases within.around with ⟨whole, -⟩ | ⟨last, r', whole, came, hands⟩
  · simp [whole, other] at inside
  · obtain rfl : r = r' := by simpa [whole, other] using inside
    exact ⟨last, came, hands⟩

theorem underBelow (path : List Nat) (k : Nat) (ts : List Told) :
    under (path ++ [k]) (under path ts) = under (path ++ [k]) ts :=
  underUnder (List.prefix_append path [k]) ts

theorem withinByPlace {us : List Told} {out : Option (Option AppletResult)}
    (within : Within mode path spec children ts us out) : ByPlace path ts := by
  have inner : ByPlace path us := talesByPlace within.tales
  have own {t : Told} (here : t.path = path) (i : Nat) : ¬ path ++ [i] <+: t.path := by
    rw [here]
    exact fun below => childBelow below rfl
  have around : ByPlace path (under path ts) := by
    rcases within.around with ⟨whole, -⟩ | ⟨last, r, whole, -⟩ <;> rw [whole]
    · exact List.pairwise_cons.mpr ⟨fun _ _ i _ below => absurd below (own rfl i), inner⟩
    · refine List.pairwise_cons.mpr ⟨fun _ _ i _ below => absurd below (own rfl i), ?_⟩
      refine List.pairwise_append.mpr ⟨inner, List.pairwise_singleton .., fun t _ u last => ?_⟩
      obtain rfl := List.mem_singleton.mp last
      exact fun _ j _ below => absurd below (own rfl j)
  refine (List.pairwise_filter.mp around).imp fun both i j first second => ?_
  exact both (by simpa using (List.prefix_append path [i]).trans first)
    (by simpa using (List.prefix_append path [j]).trans second) i j first second

theorem withinPassed {us : List Told} {out : Option (Option AppletResult)}
    (within : Within mode path spec children ts us out) (ended : .ended (path ++ [k]) r ∈ ts)
    {j : Nat} (earlier : j < k) :
    .skipped (path ++ [j]) ∈ ts ∨ ∃ r, .ended (path ++ [j]) r ∈ ts := by
  have inside : .ended (path ++ [k]) r ∈ us := (within.children k _ rfl).mp ended
  have below : path ++ [0 + k] <+: (Told.ended (path ++ [k]) r).path := by
    rw [Nat.zero_add]
    exact List.prefix_rfl
  have passed := talesPassed within.tales inside below earlier
  rw [Nat.zero_add] at passed
  refine passed.imp (within.children j _ rfl).mpr ?_
  rintro ⟨r, ended⟩
  exact ⟨r, (within.children j _ rfl).mpr ended⟩

theorem withinCut {us : List Told} {out : Option (Option AppletResult)}
    (within : Within mode path spec children ts us out) (guard : spec.kind.mode mode = .guard)
    (found : children[k]? = some child)
    (plain : child.flowKind?.any FlowKind.steersChain = false) (failed : r.isSuccessful = false)
    (ended : .ended (path ++ [k]) r ∈ ts) :
    ∃ front, under path ts = front ++ (under (path ++ [k]) ts ++
      (skips path (k + 1) (children.drop (k + 1)) ++ [.ended path r])) := by
  have tales := within.tales
  have inside : .ended (path ++ [0 + k]) r ∈ us := by
    rw [Nat.zero_add]
    exact (within.children k _ rfl).mp ended
  rw [guard] at tales
  obtain ⟨⟨front, whole⟩, came⟩ := talesCut tales found plain failed inside
  rw [Nat.zero_add] at whole
  rcases within.around with ⟨-, out⟩ | ⟨last, r', around, out, hands⟩
  · cases out.symm.trans came
  · obtain rfl : last = some r := Option.some.inj (out.symm.trans came)
    obtain rfl : r' = r := hands.failed r rfl failed
    have same : under (path ++ [k]) us = under (path ++ [k]) ts := by
      rw [← underBelow path k ts, around, underAround]
    rw [same] at whole
    exact ⟨.started path :: front, by rw [around, whole]; simp⟩

theorem guardedMode (guarded : Guarded tree path)
    (located : tree.at? path = some (.flow info spec children)) (mode : Mode) :
    spec.kind.mode (tree.modeAt path mode) = .guard := by
  induction guarded generalizing info spec children with
  | guard place kind =>
    cases place.symm.trans located
    simp [FlowKind.mode, kind]
  | within outer place kind ih =>
    cases place.symm.trans located
    obtain ⟨info, outside, siblings, above, found⟩ := atParent located
    rw [modeAtChild above found, ih above]
    simp [FlowKind.mode, kind]

theorem transparentPlain {kind : FlowKind} (transparent : kind.isTransparent = true) :
    kind.steersChain = false := by
  cases kind <;> first | rfl | cases transparent

theorem treeCut (tale : Tale mode [] tree ts r₀) (guarded : Guarded tree path)
    (located : tree.at? path = some (.flow info spec children)) (found : children[k]? = some child)
    (plain : child.flowKind?.any FlowKind.steersChain = false) (failed : r.isSuccessful = false)
    (ended : .ended (path ++ [k]) r ∈ ts) :
    ∃ front, under path ts = front ++ (under (path ++ [k]) ts ++
      (skips path (k + 1) (children.drop (k + 1)) ++ [.ended path r])) := by
  obtain ⟨us, out, within⟩ := evaluatedWithin tale located ended
  exact withinCut within (guardedMode guarded located mode) found plain failed ended

theorem treeClimbs (tale : Tale mode [] tree ts r₀) (guarded : Guarded tree path)
    (located : tree.at? path = some (.flow info spec children)) (found : children[k]? = some child)
    (plain : child.flowKind?.any FlowKind.steersChain = false) (failed : r.isSuccessful = false)
    (ended : .ended (path ++ [k]) r ∈ ts) :
    ∃ climb, Climbs tree r path k climb ∧ under (path ++ [k]) ts ++ climb <:+: ts := by
  obtain ⟨front, whole⟩ := treeCut tale guarded located found plain failed ended
  induction guarded generalizing info spec children k child front with
  | @guard path _ _ _ place kind =>
    cases place.symm.trans located
    refine ⟨_, .guard located kind, List.IsInfix.trans ?_ (taleTogether tale located)⟩
    rw [List.nil_append, whole]
    exact (List.suffix_append _ _).isInfix
  | @within path j _ _ _ outer place kind ih =>
    cases place.symm.trans located
    obtain ⟨info', spec', children', above, here⟩ := atParent located
    have closes : .ended (path ++ [j]) r ∈ ts := by
      have inside : .ended (path ++ [j]) r ∈ under (path ++ [j]) ts := by simp [whole]
      exact (memUnder.mp inside).1
    have steady := transparentPlain kind
    obtain ⟨front', whole'⟩ := treeCut tale outer above here steady failed closes
    obtain ⟨climb, climbs, together⟩ := ih above here steady closes front' whole'
    refine ⟨_, .within climbs located kind, List.IsInfix.trans ?_ together⟩
    exact ⟨front, [], by simp [whole]⟩

theorem treeEnds {q : List Nat} (tale : Tale mode [] tree ts r₀) (located : tree.at? q = some child)
    (ended : .ended q r ∈ ts) : [.ended q r] <:+ under q ts := by
  obtain ⟨r', own, -⟩ := taleOf tale located ended List.prefix_rfl (by simp)
  obtain rfl : r' = some r := endedTale own (memUnder.mpr ⟨ended, List.prefix_rfl⟩)
  obtain ⟨inner, -, shape⟩ := taleShape own
  exact ⟨.started q :: inner, shape.symm⟩

theorem treeLater (tale : Tale mode [] tree ts r₀) (guarded : Guarded tree path)
    (located : tree.at? path = some (.flow info spec children)) (found : children[k]? = some child)
    (plain : child.flowKind?.any FlowKind.steersChain = false) (failed : r.isSuccessful = false)
    (ended : .ended (path ++ [k]) r ∈ ts) {j : Nat} {sibling : Applet} (later : k < j)
    (there : children[j]? = some sibling) : under (path ++ [j]) ts = [.skipped (path ++ [j])] := by
  refine skippedAlone tale (atChild located there) ?_
  obtain ⟨front, whole⟩ := treeCut tale guarded located found plain failed ended
  have known := (List.getElem?_eq_some_iff.mp there).1
  have inside : .skipped (path ++ [j]) ∈ skips path (k + 1) (children.drop (k + 1)) :=
    memSkips path later (by rw [List.length_drop]; omega)
  have here : .skipped (path ++ [j]) ∈ under path ts := by simp [whole, inside]
  exact (memUnder.mp here).1

theorem aggregates {kind : FlowKind} (plain : kind = .root ∨ kind = .otherwise ∨ kind = .block)
    (outer : Mode) : kind.mode outer = .aggregate := by
  rcases plain with rfl | rfl | rfl <;> rfl

theorem succeedsEnded (tale : Tale mode [] tree ts r₀) (located : tree.at? (path ++ [k]) = some child)
    (ended : .ended (path ++ [k]) r ∈ ts) : succeeds path ts k = r.isSuccessful := by
  have once (r' : AppletResult) (ended' : .ended (path ++ [k]) r' ∈ ts) : r = r' :=
    endedOnce tale located ended ended'
  rw [succeeds, Bool.eq_iff_iff, List.any_eq_true]
  constructor
  · rintro ⟨t, inside, holds⟩
    cases t with
    | ended q r' =>
      obtain ⟨rfl, success⟩ : q = path ++ [k] ∧ r'.isSuccessful = true := by simpa using holds
      rw [once r' inside]
      exact success
    | started q | skipped q => cases holds
  · intro success
    exact ⟨_, ended, by simp [success]⟩

end

/- A flow in which no child cuts the others short: those that are skipped are so for the sake of
their chain, and if the flow ends, the others have come to their end. -/
structure GoesOn (path : List Nat) (children : List Applet) (ts : List Told) : Prop where
  skipped : ∀ k child, children[k]? = some child → .skipped (path ++ [k]) ∈ ts →
    (Chain.behind (succeeds path ts) 0 .idle (children.take k)).plan child.flowKind? ≠ .evaluate
  whole : ∀ k r, k < children.length → .ended path r ∈ ts →
    .skipped (path ++ [k]) ∈ ts ∨ ∃ r', .ended (path ++ [k]) r' ∈ ts

theorem treeGoesOn {mode : Mode} {tree : Applet} {path : List Nat} {info : AppletInfo}
    {spec : FlowSpec} {children : List Applet} {ts : List Told} {r₀ : Option AppletResult}
    {r : AppletResult} {k : Nat} (tale : Tale mode [] tree ts r₀)
    (located : tree.at? path = some (.flow info spec children))
    (plain : spec.kind = .root ∨ spec.kind = .otherwise ∨ spec.kind = .block)
    (ended : .ended (path ++ [k]) r ∈ ts) : GoesOn path children ts := by
  obtain ⟨us, out, within⟩ := evaluatedWithin tale located ended
  constructor
  · intro j child found skipped
    have tales := within.tales
    rw [aggregates plain] at tales
    have agree (k : Nat) (r : AppletResult) (known : k < 0 + children.length)
        (ended : .ended (path ++ [k]) r ∈ us) : succeeds path ts k = r.isSuccessful := by
      rw [Nat.zero_add] at known
      exact succeedsEnded tale (atChild located (List.getElem?_eq_getElem known))
        ((within.children k _ rfl).mpr ended)
    refine talesPlanned agree tales found ?_
    rw [Nat.zero_add]
    exact (within.children j _ rfl).mp skipped
  · intro j r' known closed
    obtain ⟨last, came, -⟩ := withinEnded within closed
    have tales := within.tales
    rw [came] at tales
    have gone := talesWhole tales (List.getElem?_eq_getElem known)
    rw [Nat.zero_add] at gone
    refine gone.imp (within.children j _ rfl).mpr ?_
    rintro ⟨r, ended⟩
    exact ⟨r, (within.children j _ rfl).mpr ended⟩

section
variable {journal part : Journal} {q : List Nat} {e : Entry} {t : Told}

theorem toldPath (told : e.told? = some t) : t.path = e.path := by
  unfold Entry.told? at told
  split at told <;> cases told <;> rfl

theorem toldSkips (skips : e.skips = true) : e.told? = some (.skipped e.path) := by
  cases e with
  | notice heard phase path info run => cases phase <;> first | rfl | cases skips
  | _ => cases skips

theorem toldCons (told : e.told? = some t) (rest : Journal) :
    Journal.told (e :: rest) = t :: rest.told :=
  List.filterMap_cons_some told

theorem underTold (q : List Nat) (journal : Journal) :
    under q journal.told = Journal.told (journal.filter fun e => q <+: e.path) := by
  induction journal with
  | nil => rfl
  | cons e rest ih =>
    cases told : e.told? with
    | none =>
      have drop : Journal.told (e :: rest) = Journal.told rest := List.filterMap_cons_none told
      rw [drop, ih, List.filter_cons]
      split
      · exact (List.filterMap_cons_none told).symm
      · rfl
    | some t =>
      rw [toldCons told, List.filter_cons]
      by_cases below : q <+: e.path
      · rw [underHere (by rwa [toldPath told]), ih]
        simp [below, toldCons told]
      · rw [underElse (by rwa [toldPath told]), ih]
        simp [below]

theorem chronicleStarted {target path a r} (chronicle : Chronicle target path a part r)
    (inside : e ∈ part) : .started path ∈ part.told := by
  have first {heard info run rest} :
      .started path ∈ Journal.told (.notice heard .started path info run :: rest) :=
    List.mem_cons_self
  cases chronicle with
  | ahead => simp at inside
  | leafOpen | leaf | unavailable => exact first
  | flowOpen opens | flow opens => cases opens <;> exact first

theorem skippedEntry {target tree r} (chronicle : Chronicle target [] tree journal r)
    (alone : under q journal.told = [.skipped q]) :
    ∃ e, e.told? = some (.skipped q) ∧ journal.filter (fun e => q <+: e.path) = [e] := by
  have skips (e : Entry) (inside : e ∈ journal) (below : q <+: e.path) : e.skips = true := by
    by_contra other
    obtain ⟨p, b, aim, own, r', same, here, located⟩ :=
      chronicleLocated chronicle inside (Bool.eq_false_iff.mpr other)
    rw [List.nil_append] at same
    have started := chronicleStarted located.chronicle here
    rw [List.nil_append, ← same] at started
    have told : .started e.path ∈ journal.told :=
      ((ownsInfix located.owns).filterMap _).subset started
    have inside : .started e.path ∈ under q journal.told := memUnder.mpr ⟨told, below⟩
    simp [alone] at inside
  rw [underTold] at alone
  have below (e : Entry) (inside : e ∈ journal.filter fun e => q <+: e.path) :
      e.told? = some (.skipped e.path) := by
    obtain ⟨inside, below⟩ := List.mem_filter.mp inside
    exact toldSkips (skips e inside (by simpa using below))
  generalize journal.filter (fun e => q <+: e.path) = own at alone below
  cases own with
  | nil => cases alone
  | cons e rest =>
    have first := below e List.mem_cons_self
    rw [toldCons first, List.cons.injEq] at alone
    obtain ⟨same, none⟩ := alone
    cases rest with
    | nil => exact ⟨e, first.trans (congrArg some same), rfl⟩
    | cons e' rest =>
      rw [toldCons (below e' (List.mem_cons_of_mem e List.mem_cons_self))] at none
      cases none

end

/- A flow that a failing child cuts short: the failure goes up to the guard, and of each child behind
there is nothing but the notice that it was skipped. -/
structure CutShort (tree : Applet) (path : List Nat) (children : List Applet) (k : Nat)
    (r : AppletResult) (journal : Journal) : Prop where
  climbs : ∃ climb, Climbs tree r path k climb ∧ .ended (path ++ [k]) r :: climb <:+: journal.told
  later : ∀ j, k < j → j < children.length → ∃ e, e.told? = some (.skipped (path ++ [j])) ∧
    journal.filter (fun e => path ++ [j] <+: e.path) = [e]

namespace Lone

/- The children of a flow are gone through in order. If one of them fails in a guard, or in what a
guard is made of, and does not steer a chain, it is the last one: those behind it are skipped, and
so is the rest of every flow up to the guard, which all end with its result. Roots, blocks and
catch-alls go on, wherever they stand. -/
theorem guardsCutShort {world : World} (clean : world.slates.Clean) {task : Task} {path : List Nat}
    {info : AppletInfo} {spec : FlowSpec} {children : List Applet} {k : Nat} {child : Applet}
    {r : AppletResult} (located : task.tree.at? path = some (.flow info spec children))
    (found : children[k]? = some child) (handle : Handle) (observer : Option Observer)
    (first : Batch) (later : List Batch) :
    let journal := (drive (obtain world task handle observer first) first later).1.journal
    .ended (path ++ [k]) r ∈ journal.told →
      ByPlace path journal.told ∧
      (∀ j < k, .skipped (path ++ [j]) ∈ journal.told ∨
        ∃ r, .ended (path ++ [j]) r ∈ journal.told) ∧
      (Guarded task.tree path → child.flowKind?.any FlowKind.steersChain = false →
        r.isSuccessful = false → CutShort task.tree path children k r journal) ∧
      (spec.kind = .root ∨ spec.kind = .otherwise ∨ spec.kind = .block →
        GoesOn path children journal.told) := by
  intro journal ended
  obtain ⟨r', tale, -⟩ := driveTold clean task handle observer first later
  obtain ⟨target, out, chronicle⟩ := driveChronicle clean task handle observer first later
  obtain ⟨us, out, within⟩ := evaluatedWithin tale located ended
  refine ⟨withinByPlace within, fun j earlier => withinPassed within ended earlier,
    fun guarded plain failed => ⟨?_, fun j later known => ?_⟩,
    fun plain => treeGoesOn tale located plain ended⟩
  · obtain ⟨climb, climbs, together⟩ := treeClimbs tale guarded located found plain failed ended
    obtain ⟨front, whole⟩ := treeEnds tale (atChild located found) ended
    refine ⟨climb, climbs, List.IsInfix.trans ⟨front, [], ?_⟩ together⟩
    rw [← whole]
    simp
  · exact skippedEntry chronicle (treeLater tale guarded located found plain failed ended later
      (List.getElem?_eq_getElem known))

def brokenParts : List Applet :=
  [.wait (Sample.named "wait for window" (.make 0x60 0x0001)) (Wait.ofType ⟨"new_window"⟩),
    .criterion { Sample.named "package is" (.make 0x10 0x0001) with
      references := Sample.slot "package" } (Check.field "package" fun a b => a.same b),
    .action (Sample.named "announce window" (.make 0x50 0x0001)) Sample.announce]

def brokenGuardTask : Task :=
  ⟨{ title := "Broken guard" },
    Sample.flow .root
      [Sample.flow .ifAll [Sample.flow .container brokenParts,
        .action (Sample.named "announce" (.make 0x50 0x0001)) Sample.announce],
        Sample.flow .block []],
    rfl, rfl⟩

/- The run comes back to the container after a suspension, and its criterion fails: nothing else is
evaluated in the container, nor in the guard. -/
theorem guardsCutShortBroken :
    World.fresh.slates.Clean ∧ Guarded brokenGuardTask.tree [0, 0] ∧
      let journal := (drive (obtain World.fresh brokenGuardTask ⟨0⟩ none launcherBatch) launcherBatch
        launcherBatches).1.journal
      .ended [0, 0, 1] (.empty false) ∈ journal.told ∧
        CutShort brokenGuardTask.tree [0, 0] brokenParts 1 (.empty false) journal := by
  have clean : World.fresh.slates.Clean := fun a inside => nomatch inside
  have guarded : Guarded brokenGuardTask.tree ([0] ++ [0]) := .within (.guard rfl rfl) rfl rfl
  have ended : .ended [0, 0, 1] (.empty false) ∈ (drive (obtain World.fresh brokenGuardTask ⟨0⟩ none
      launcherBatch) launcherBatch launcherBatches).1.journal.told := by decide
  have located : brokenGuardTask.tree.at? [0, 0] = some (.flow { id := .unregistered }
      { kind := .container } brokenParts) := rfl
  have found : brokenParts[1]? = some brokenParts[1] := rfl
  obtain ⟨-, -, cut, -⟩ := guardsCutShort clean located found ⟨0⟩ none launcherBatch launcherBatches
    ended
  exact ⟨clean, guarded, ended, cut guarded rfl rfl⟩

end Lone
end Automation
