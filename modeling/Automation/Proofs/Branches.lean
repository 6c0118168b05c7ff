import Automation.Proofs.Telling
/-! Branch chains. Of the blocks of a chain at most one runs: that of the first guard to succeed, or
that of the catch-all if none does. Members behind it are skipped, whatever the flow contains
besides, and however often a run is suspended on the way. -/
namespace Automation

inductive Continues : List Applet → Prop where
  | none : Continues []
  | elseIf {guard block rest} (kind : guard.flowKind? = some .elseIf)
      (own : block.flowKind? = some .block) (later : Continues rest) :
      Continues (guard :: block :: rest)
  | otherwise {guard block} (kind : guard.flowKind? = some .otherwise)
      (own : block.flowKind? = some .block) : Continues [guard, block]

inductive Branches : List Applet → Prop where
  | opened {guard block rest kind} (opens : kind = .when ∨ kind = .ifAll)
      (guarding : guard.flowKind? = some kind) (own : block.flowKind? = some .block)
      (later : Continues rest) :
      Branches (guard :: block :: rest)

def visited (path : List Nat) (i : Nat) (r : AppletResult) : List Told :=
  [.started (path ++ [i]), .ended (path ++ [i]) r]

/- What is told of the members of a chain from place `i` on if no guard before has succeeded, and
the result of the last of them that is evaluated. -/
inductive Exclusive (path : List Nat) :
    Nat → List Applet → List Told → Option AppletResult → Prop where
  | none {i} : Exclusive path i [] [] none
  | succeeds {i guard block rest} (kind : guard.flowKind?.any FlowKind.isGuard = true)
      {r : AppletResult} (success : r.isSuccessful = true) (r' : AppletResult) :
      Exclusive path i (guard :: block :: rest)
        (visited path i r ++ (visited path (i + 1) r' ++ skips path (i + 2) rest)) (some r')
  | fails {i guard block rest ts last} (kind : guard.flowKind?.any FlowKind.isGuard = true)
      {r : AppletResult} (failure : r.isSuccessful = false)
      (later : Exclusive path (i + 2) rest ts last) :
      Exclusive path i (guard :: block :: rest)
        (visited path i r ++ .skipped (path ++ [i + 1]) :: ts) (some (last.getD r))
  | otherwise {i guard block} (kind : guard.flowKind? = some .otherwise) (r r' : AppletResult) :
      Exclusive path i [guard, block] (visited path i r ++ visited path (i + 1) r') (some r')

/- What is told of the children of the node at `path` themselves, from place `lo` up to `hi`. -/
def among (path : List Nat) (lo hi : Nat) (ts : List Told) : List Told :=
  ts.filter fun t => ∃ k < hi, lo ≤ k ∧ t.path = path ++ [k]

section
variable {path : List Nat} {lo hi i : Nat} {ts us : List Told}

@[simp] theorem amongAppend :
    among path lo hi (ts ++ us) = among path lo hi ts ++ among path lo hi us :=
  List.filter_append ..

theorem amongNone (other : ∀ t ∈ ts, ∀ k < hi, lo ≤ k → t.path ≠ path ++ [k]) :
    among path lo hi ts = [] := by
  refine List.filter_eq_nil_iff.mpr fun t inside => ?_
  simpa using fun k high low => other t inside k high low

theorem amongSkipped (low : lo ≤ i) (high : i < hi) (ts : List Told) :
    among path lo hi (.skipped (path ++ [i]) :: ts) =
      .skipped (path ++ [i]) :: among path lo hi ts :=
  List.filter_cons_of_pos (by simpa using ⟨i, high, low, rfl⟩)

theorem amongSkips (low : lo ≤ i) (children : List Applet) (high : i + children.length ≤ hi) :
    among path lo hi (skips path i children) = skips path i children := by
  refine List.filter_eq_self.mpr fun t inside => ?_
  obtain ⟨k, above, below, rfl⟩ := skipsWithin inside
  simpa using ⟨k, by omega, by omega, rfl⟩

theorem amongSkipsLater (children : List Applet) (high : hi ≤ i) :
    among path lo hi (skips path i children) = [] := by
  refine amongNone fun t inside k below _ same => ?_
  obtain ⟨j, above, -, rfl⟩ := skipsWithin inside
  have equal : j = k := by simpa [Told.path] using same
  omega

theorem skipsAppend (path : List Nat) (i : Nat) (first second : List Applet) :
    skips path i (first ++ second) =
      skips path i first ++ skips path (i + first.length) second := by
  induction first generalizing i with
  | nil => rfl
  | cons child rest ih =>
    have behind : i + 1 + rest.length = i + (rest.length + 1) := by omega
    simp [skips, ih, behind]

theorem amongLater {mode chain last children out}
    (tales : Tales mode path chain last i children ts out) (high : hi ≤ i) :
    among path lo hi ts = [] := by
  refine amongNone fun t inside k below _ same => ?_
  obtain ⟨j, above, under⟩ := talesBelow tales inside
  rw [same] at under
  have equal := childrenApart under List.prefix_rfl
  omega

theorem amongDeeper {q : List Nat} (deeper : q.length = path.length + 1)
    (inner : ∀ t ∈ ts, ∃ k, q ++ [k] <+: t.path) : among path lo hi ts = [] := by
  refine amongNone fun t inside k _ _ same => ?_
  obtain ⟨j, under⟩ := inner t inside
  have length := under.length_le
  rw [same] at length
  simp only [List.length_append, List.length_singleton] at length
  omega

theorem amongStarted (low : lo ≤ i) (high : i < hi) (ts : List Told) :
    among path lo hi (.started (path ++ [i]) :: ts) =
      .started (path ++ [i]) :: among path lo hi ts :=
  List.filter_cons_of_pos (by simpa using ⟨i, high, low, rfl⟩)

theorem amongTale {mode child r} (tale : Tale mode (path ++ [i]) child ts (some r)) (low : lo ≤ i)
    (high : i < hi) : among path lo hi ts = visited path i r := by
  obtain ⟨inner, deeper, shape⟩ := taleShape tale
  have ended : among path lo hi [Told.ended (path ++ [i]) r] = [.ended (path ++ [i]) r] :=
    List.filter_eq_self.mpr fun t inside => by
      rw [List.mem_singleton.mp inside]
      simpa using ⟨i, high, low, rfl⟩
  rw [shape, amongAppend, amongStarted low high, amongDeeper (by simp) deeper, ended]
  rfl

theorem amongTalePart {mode child} (tale : Tale mode (path ++ [i]) child ts none) (low : lo ≤ i)
    (high : i < hi) (r : AppletResult) : among path lo hi ts <+: visited path i r := by
  obtain ⟨inner, deeper, none | shape⟩ := taleShape tale
  · rw [none]
    exact List.nil_prefix
  · rw [shape, amongStarted low high, amongDeeper (by simp) deeper]
    exact ⟨[.ended (path ++ [i]) r], rfl⟩

theorem amongEarlier {mode child r} (tale : Tale mode (path ++ [i]) child ts r) (low : i < lo) :
    among path lo hi ts = [] := by
  refine amongNone fun t inside k _ above same => ?_
  have under := taleWithin tale t inside
  rw [same] at under
  have equal := childrenApart under List.prefix_rfl
  omega

theorem amongSkippedEarlier (low : i < lo) (ts : List Told) :
    among path lo hi (.skipped (path ++ [i]) :: ts) = among path lo hi ts := by
  refine List.filter_cons_of_neg ?_
  simp only [decide_eq_true_eq, not_exists, not_and]
  intro k _ above same
  have equal : i = k := by simpa [Told.path] using same
  omega

structure Accords (path : List Nat) (lo hi : Nat) (after : List Applet) (ts : List Told)
    (out : Option (Option AppletResult)) (full : List Told) (result : Option AppletResult) :
    Prop where
  part : among path lo hi ts <+: full
  whole (last : Option AppletResult) (ended : out = some last) : among path lo hi ts = full
  passed (alone : after = []) (last : Option AppletResult) (ended : out = some last) : last = result

variable {mode : Mode} {chain : Chain} {last : Option AppletResult} {guard block : Applet}
  {rest after : List Applet} {out : Option (Option AppletResult)}

theorem accordsAhead (full : List Told) (result : Option AppletResult) :
    Accords path lo hi after [] none full result :=
  ⟨List.nil_prefix, nofun, nofun⟩

theorem accordsVisiting {child} (inner : Tale mode (path ++ [i]) child ts none) (low : lo ≤ i)
    (high : i < hi) (r : AppletResult) (full : List Told) (result : Option AppletResult) :
    Accords path lo hi after ts none (visited path i r ++ full) result :=
  ⟨(amongTalePart inner low high r).trans (List.prefix_append _ _), nofun, nofun⟩

theorem Accords.visited {child r full result} (later : Accords path lo hi after us out full result)
    (inner : Tale mode (path ++ [i]) child ts (some r)) (low : lo ≤ i) (high : i < hi) :
    Accords path lo hi after (ts ++ us) out (visited path i r ++ full) result where
  part := by
    rw [amongAppend, amongTale inner low high]
    exact (List.prefix_append_right_inj _).mpr later.part
  whole last ended := by
    rw [amongAppend, amongTale inner low high, later.whole last ended]
  passed := later.passed

theorem Accords.skipped {full result} (later : Accords path lo hi after ts out full result)
    (low : lo ≤ i) (high : i < hi) :
    Accords path lo hi after (.skipped (path ++ [i]) :: ts) out (.skipped (path ++ [i]) :: full)
      result where
  part := by
    rw [amongSkipped low high]
    exact List.cons_prefix_cons.mpr ⟨rfl, later.part⟩
  whole last ended := by rw [amongSkipped low high, later.whole last ended]
  passed := later.passed

theorem restSkipped (skip : ∀ c ∈ rest, chain.plan c.flowKind? = .skip)
    (tales : Tales mode path chain last i (rest ++ after) ts out) (low : lo ≤ i)
    (high : hi = i + rest.length) : Accords path lo hi after ts out (skips path i rest) last := by
  induction rest generalizing i ts with
  | nil =>
    have past : hi ≤ i := Nat.le_of_eq (by simpa using high)
    have none : among path lo hi ts = [] := amongLater tales past
    refine ⟨by simp [none], fun _ _ => by simp [none, skips], fun alone last' ended => ?_⟩
    subst alone ended
    cases tales
    rfl
  | cons child rest ih =>
    have plan := skip child List.mem_cons_self
    rw [List.length_cons] at high
    cases tales with
    | ahead => exact accordsAhead _ _
    | skip _ later =>
      have onward := ih (fun c inside => skip c (List.mem_cons_of_mem child inside)) later
        (by omega) (by omega)
      exact onward.skipped low (by omega)
    | orphan other | visiting other | visited other | cut other =>
      rw [plan] at other
      cases other

theorem doneSkips (continues : Continues rest) :
    ∀ c ∈ rest, Chain.done.plan c.flowKind? = .skip := by
  induction continues with
  | none => simp
  | elseIf kind own later ih =>
    intro c inside
    simp only [List.mem_cons] at inside
    rcases inside with rfl | rfl | inside
    · rw [kind]
      rfl
    · rw [own]
      rfl
    · exact ih c inside
  | otherwise kind own =>
    intro c inside
    simp only [List.mem_cons, List.not_mem_nil, or_false] at inside
    rcases inside with rfl | rfl
    · rw [kind]
      rfl
    · rw [own]
      rfl

theorem blockAccords (own : block.flowKind? = some .block) (continues : Continues rest)
    (tales : Tales mode path .matched last i (block :: (rest ++ after)) ts out) (low : lo ≤ i)
    (high : hi = i + 1 + rest.length) :
    ∃ r, Accords path lo hi after ts out (visited path i r ++ skips path (i + 1) rest)
      (some r) := by
  cases tales with
  | ahead => exact ⟨.empty true, accordsAhead _ _⟩
  | skip plan | orphan plan =>
    rw [own] at plan
    cases plan
  | visiting plan inner => exact ⟨.empty true, accordsVisiting inner low (by omega) _ _ _⟩
  | @visited _ _ _ _ _ _ _ front r _ _ plan inner goes later =>
    rw [own] at later
    refine ⟨r, Accords.visited ?_ inner low (by omega)⟩
    exact restSkipped (doneSkips continues) later (by omega) high
  | @cut _ _ _ _ _ _ _ front r plan inner stop =>
    refine ⟨r, Accords.visited ?_ inner low (by omega)⟩
    have same :
        among path lo hi (skips path (i + 1) (rest ++ after)) = skips path (i + 1) rest := by
      rw [skipsAppend, amongAppend, amongSkips (by omega) rest (by omega),
        amongSkipsLater after (by omega), List.append_nil]
    exact ⟨by simp [same], fun _ _ => same, fun _ last ended => by simpa using ended.symm⟩

theorem afterGuard {kind : FlowKind} (guards : kind.isGuard = true) (success : Bool) :
    Chain.after (some kind) success = if success then .matched else .unmatched := by
  simp [Chain.after, guards]

theorem afterOtherwise (success : Bool) : Chain.after (some .otherwise) success = .matched := by
  simp [Chain.after, FlowKind.isGuard]

theorem exclusiveSome (path : List Nat) (i : Nat) (continues : Continues rest) :
    ∃ full result, Exclusive path i rest full result := by
  have success : (AppletResult.empty true).isSuccessful = true := rfl
  cases continues with
  | none => exact ⟨_, _, .none⟩
  | elseIf kind own later =>
    exact ⟨_, _, .succeeds (by simp [kind, FlowKind.isGuard]) success (.empty true)⟩
  | otherwise kind own => exact ⟨_, _, .otherwise kind (.empty true) (.empty true)⟩

theorem guardExclusive {kind : FlowKind} (guarding : guard.flowKind? = some kind)
    (guards : kind.isGuard = true) (plan : chain.plan guard.flowKind? = .evaluate)
    (own : block.flowKind? = some .block) (continues : Continues rest)
    (tales : Tales mode path chain last i (guard :: block :: (rest ++ after)) ts out)
    (low : lo ≤ i) (high : hi = i + 2 + rest.length)
    (onward : ∀ last ts, Tales mode path .unmatched last (i + 2) (rest ++ after) ts out →
      ∃ full result, Exclusive path (i + 2) rest full result ∧
        Accords path lo hi after ts out full (result.or last)) :
    ∃ full result, Exclusive path i (guard :: block :: rest) full (some result) ∧
      Accords path lo hi after ts out full (some result) := by
  have any : guard.flowKind?.any FlowKind.isGuard = true := by simp [guarding, guards]
  have success : (AppletResult.empty true).isSuccessful = true := rfl
  cases tales with
  | ahead => exact ⟨_, _, .succeeds any success (.empty true), accordsAhead _ _⟩
  -- A guard that is to be evaluated is not skipped.
  | skip other | orphan other =>
    rw [plan] at other
    cases other
  | visiting _ inner =>
    exact ⟨_, _, .succeeds any success (.empty true), accordsVisiting inner low (by omega) _ _ _⟩
  | cut _ inner stop =>
    simp [Mode.cuts, guarding, FlowKind.steersChain, guards] at stop
  | @visited _ _ _ _ _ _ _ front r us _ _ inner goes later =>
    rw [guarding, afterGuard guards] at later
    cases succeeded : r.isSuccessful with
    | true =>
      rw [succeeded] at later
      have ran : ∃ r', Accords path lo hi after us out
          (visited path (i + 1) r' ++ skips path (i + 1 + 1) rest) (some r') :=
        blockAccords own continues later (by omega) (by omega)
      obtain ⟨r', accords⟩ := ran
      exact ⟨_, r', .succeeds any succeeded r', accords.visited inner low (by omega)⟩
    | false =>
      rw [succeeded, if_neg Bool.false_ne_true] at later
      have skip : Chain.unmatched.plan block.flowKind? = .skip := by
        rw [own]
        rfl
      cases later with
      | ahead =>
        obtain ⟨full, result, exclusive⟩ := exclusiveSome path (i + 2) continues
        exact ⟨_, _, .fails any succeeded exclusive,
          (accordsAhead _ _).visited inner low (by omega)⟩
      | skip _ later =>
        obtain ⟨full, result, exclusive, accords⟩ := onward _ _ later
        rw [Option.or_some] at accords
        refine ⟨_, _, .fails any succeeded exclusive, ?_⟩
        exact (accords.skipped (by omega) (by omega)).visited inner low (by omega)
      | orphan other | visiting other | visited other | cut other =>
        rw [skip] at other
        cases other

theorem unmatchedExclusive (continues : Continues rest)
    (tales : Tales mode path .unmatched last i (rest ++ after) ts out) (low : lo ≤ i)
    (high : hi = i + rest.length) :
    ∃ full result, Exclusive path i rest full result ∧
      Accords path lo hi after ts out full (result.or last) := by
  -- By induction on the rest of the chain, as long as no guard has succeeded.
  induction continues generalizing i ts last with
  | none =>
    have accords : Accords path lo hi after ts out (skips path i []) last :=
      restSkipped (by simp) tales low high
    exact ⟨_, none, .none, accords⟩
  | @elseIf guard block rest kind own later ih =>
    rw [List.length_cons, List.length_cons] at high
    have plan : Chain.unmatched.plan guard.flowKind? = .evaluate := by
      rw [kind]
      rfl
    obtain ⟨full, result, exclusive, accords⟩ := guardExclusive kind rfl plan own later tales low
      (by omega) fun last us tales => ih tales (by omega) (by omega)
    exact ⟨full, some result, exclusive, accords⟩
  | @otherwise guard block kind own =>
    simp only [List.length_cons, List.length_nil] at high
    have plan : Chain.unmatched.plan guard.flowKind? = .evaluate := by
      rw [kind]
      rfl
    cases tales with
    | ahead => exact ⟨_, _, .otherwise kind (.empty true) (.empty true), accordsAhead _ _⟩
    | skip other | orphan other =>
      rw [plan] at other
      cases other
    | visiting _ inner =>
      exact ⟨_, _, .otherwise kind (.empty true) (.empty true),
        accordsVisiting inner low (by omega) _ _ _⟩
    | cut _ inner stop => simp [Mode.cuts, kind, FlowKind.steersChain] at stop
    | @visited _ _ _ _ _ _ _ front r us _ _ inner goes later =>
      rw [kind, afterOtherwise] at later
      have ran : ∃ r', Accords path lo hi after us out
          (visited path (i + 1) r' ++ skips path (i + 1 + 1) []) (some r') :=
        blockAccords own .none later (by omega) (by simpa using high)
      obtain ⟨r', accords⟩ := ran
      refine ⟨_, some r', .otherwise kind r r', ?_⟩
      have both := accords.visited inner low (by omega)
      simpa [skips] using both

theorem openedPlan {kind : FlowKind} (opens : kind = .when ∨ kind = .ifAll) (chain : Chain) :
    chain.plan (some kind) = .evaluate := by
  rcases opens with rfl | rfl <;> cases chain <;> rfl

theorem branchesSome (path : List Nat) (i : Nat) {members : List Applet}
    (branches : Branches members) :
    ∃ full result, Exclusive path i members full (some result) := by
  have success : (AppletResult.empty true).isSuccessful = true := rfl
  cases branches with
  | opened opens guarding own later =>
    refine ⟨_, _, .succeeds ?_ success (.empty true)⟩
    rcases opens with rfl | rfl <;> simp [guarding, FlowKind.isGuard]

theorem branchesAccords {members : List Applet} (branches : Branches members)
    (tales : Tales mode path chain last i (members ++ after) ts out) :
    ∃ full result, Exclusive path i members full (some result) ∧
      Accords path i (i + members.length) after ts out full (some result) := by
  cases branches with
  | @opened guard block rest kind opens guarding own later =>
    have guards : kind.isGuard = true := by rcases opens with rfl | rfl <;> rfl
    have plan : chain.plan guard.flowKind? = .evaluate := by rw [guarding, openedPlan opens]
    have length : i + (guard :: block :: rest).length = i + 2 + rest.length := by simp; omega
    rw [length]
    exact guardExclusive guarding guards plan own later tales (Nat.le_refl i) rfl
      fun last us tales => unmatchedExclusive later tales (by omega) rfl

variable {before members children : List Applet}

theorem reachesBranches (hi : Nat)
    (tales : Tales mode path chain last i (before ++ guard :: rest) ts out)
    (low : lo = i + before.length) (reached : .skipped (path ++ [lo]) ∉ ts) :
    (out = none ∧ among path lo hi ts = []) ∨ ∃ chain last us,
      Tales mode path chain last lo (guard :: rest) us out ∧
        among path lo hi ts = among path lo hi us := by
  induction before generalizing i chain last ts with
  | nil =>
    subst low
    exact .inr ⟨chain, last, ts, tales, rfl⟩
  | cons child before ih =>
    rw [List.length_cons] at low
    have above : i < lo := by omega
    cases tales with
    | ahead => exact .inl ⟨rfl, rfl⟩
    | skip plan later | orphan plan later =>
      rw [amongSkippedEarlier above]
      exact ih later (by omega) fun inside => reached (List.mem_cons_of_mem _ inside)
    | visiting plan inner => exact .inl ⟨rfl, amongEarlier inner above⟩
    | visited plan inner goes later =>
      rw [amongAppend, amongEarlier inner above, List.nil_append]
      exact ih later (by omega) fun inside => reached (List.mem_append_right _ inside)
    | cut plan inner stop =>
      refine absurd (List.mem_append_right _ ?_) reached
      change _ ∈ skips path (i + 1) (before ++ guard :: rest)
      rw [skipsAppend, show i + 1 + before.length = lo by omega]
      exact List.mem_append_right _ List.mem_cons_self

theorem evaluatedChild (plan : chain.plan guard.flowKind? = .evaluate)
    (tales : Tales mode path chain last i (guard :: rest) ts out) :
    .skipped (path ++ [i]) ∉ ts := by
  intro skipped
  cases tales with
  | ahead => simp at skipped
  | skip other | orphan other =>
    rw [plan] at other
    cases other
  | visiting _ inner => exact taleNotSkipped inner skipped
  | visited _ inner goes later =>
    rcases List.mem_append.mp skipped with front | behind
    · exact taleNotSkipped inner front
    · obtain ⟨j, above, below⟩ := talesBelow later behind
      have same := childrenApart below List.prefix_rfl
      omega
  | cut _ inner stop =>
    rcases List.mem_append.mp skipped with front | behind
    · exact taleNotSkipped inner front
    · obtain ⟨j, above, -, same⟩ := skipsWithin behind
      have equal : i = j := by simpa using same
      omega

theorem passedOver {kind : FlowKind} (opens : kind = .when ∨ kind = .ifAll)
    (guarding : guard.flowKind? = some kind)
    (tales : Tales mode path chain last i (before ++ guard :: rest) ts out)
    (skipped : .skipped (path ++ [i + before.length]) ∈ ts) :
    ∃ k child r, before[k]? = some child ∧ .ended (path ++ [i + k]) r ∈ ts ∧
      mode.cuts child r = true := by
  induction before generalizing i chain last ts with
  | nil =>
    have plan : chain.plan guard.flowKind? = .evaluate := by rw [guarding, openedPlan opens]
    exact absurd skipped (evaluatedChild plan tales)
  | cons child before ih =>
    have place : i + (child :: before).length = i + 1 + before.length := by simp; omega
    rw [place] at skipped
    have behind {chain last us}
        (later : Tales mode path chain last (i + 1) (before ++ guard :: rest) us out)
        (inside : .skipped (path ++ [i + 1 + before.length]) ∈ us) :
        ∃ k c r, (child :: before)[k]? = some c ∧ .ended (path ++ [i + k]) r ∈ us ∧
          mode.cuts c r = true := by
      obtain ⟨k, c, r, found, ended, cuts⟩ := ih later inside
      exact ⟨k + 1, c, r, found, by rwa [show i + (k + 1) = i + 1 + k by omega], cuts⟩
    have other {front r} (inner : Tale mode (path ++ [i]) child front r) :
        .skipped (path ++ [i + 1 + before.length]) ∉ front := by
      intro inside
      have same := childrenApart (taleWithin inner _ inside) List.prefix_rfl
      omega
    cases tales with
    | ahead => simp at skipped
    | skip plan later | orphan plan later =>
      rcases List.mem_cons.mp skipped with same | inside
      · have equal : i + 1 + before.length = i := by simpa using same
        omega
      · obtain ⟨k, c, r, found, ended, cuts⟩ := behind later inside
        exact ⟨k, c, r, found, List.mem_cons_of_mem _ ended, cuts⟩
    | visiting plan inner => exact absurd skipped (other inner)
    | visited plan inner goes later =>
      rcases List.mem_append.mp skipped with front | inside
      · exact absurd front (other inner)
      · obtain ⟨k, c, r, found, ended, cuts⟩ := behind later inside
        exact ⟨k, c, r, found, List.mem_append_right _ ended, cuts⟩
    | cut plan inner stop =>
      exact ⟨0, child, _, rfl, List.mem_append_left _ (taleEnded inner), stop⟩

theorem amongOwn (ts : List Told) :
    among path lo hi (.started path :: ts) = among path lo hi ts := by
  refine List.filter_cons_of_neg ?_
  simp [Told.path]

theorem amongAround (ts : List Told) (r : AppletResult) :
    among path lo hi (.started path :: ts ++ [.ended path r]) = among path lo hi ts := by
  have last : among path lo hi [Told.ended path r] = [] := amongNone (by simp [Told.path])
  rw [amongAppend, amongOwn, last, List.append_nil]

theorem amongUnder (ts : List Told) : among path lo hi (under path ts) = among path lo hi ts := by
  unfold among under
  rw [List.filter_filter]
  refine List.filter_congr fun t _ => ?_
  by_cases inside : ∃ k < hi, lo ≤ k ∧ t.path = path ++ [k]
  · obtain ⟨k, high, low, same⟩ := inside
    simp [same]
  · simp [inside]

theorem talesExclusive (branches : Branches members)
    (tales : Tales mode path chain last 0 (before ++ (members ++ after)) ts out)
    (reached : .skipped (path ++ [before.length]) ∉ ts) :
    ∃ full result, Exclusive path before.length members full (some result) ∧
      Accords path before.length (before.length + members.length) after ts out full
        (some result) := by
  have shape : ∃ guard rest, members = guard :: rest := by
    cases branches
    exact ⟨_, _, rfl⟩
  obtain ⟨guard, rest, rfl⟩ := shape
  have place : before.length = 0 + before.length := by omega
  rcases reachesBranches (before.length + (guard :: rest).length) tales place reached with
    ⟨rfl, none⟩ | ⟨chain, last, us, later, same⟩
  · obtain ⟨full, result, exclusive⟩ := branchesSome path before.length branches
    refine ⟨full, result, exclusive, ?_, nofun, nofun⟩
    rw [none]
    exact List.nil_prefix
  · obtain ⟨full, result, exclusive, accords⟩ := branchesAccords branches later
    refine ⟨full, result, exclusive, ?_, ?_, accords.passed⟩
    · rw [same]
      exact accords.part
    · rw [same]
      exact accords.whole

variable {info : AppletInfo} {spec : FlowSpec} {r : Option AppletResult}

theorem flowPassedOver (branches : Branches members)
    (tale : Tale mode path (.flow info spec (before ++ (members ++ after))) ts r)
    (skipped : .skipped (path ++ [before.length]) ∈ ts) :
    (spec.selector ≠ none ∧
      ts = .started path :: skips path 0 (before ++ (members ++ after)) ++
        [.ended path (.empty false)]) ∨
    ∃ k child r, before[k]? = some child ∧ .ended (path ++ [k]) r ∈ ts ∧
      (spec.kind.mode mode).cuts child r = true := by
  have shape : ∃ guard rest kind, members = guard :: rest ∧ (kind = .when ∨ kind = .ifAll) ∧
      guard.flowKind? = some kind := by
    cases branches with
    | opened opens guarding own later => exact ⟨_, _, _, rfl, opens, guarding⟩
  obtain ⟨guard, rest, kind, rfl, opens, guarding⟩ := shape
  have earlier {us out} (tales : Tales (spec.kind.mode mode) path .idle none 0
      (before ++ (guard :: rest ++ after)) us out)
      (inside : .skipped (path ++ [before.length]) ∈ us) :
      ∃ k child r, before[k]? = some child ∧ .ended (path ++ [k]) r ∈ us ∧
        (spec.kind.mode mode).cuts child r = true := by
    simpa using passedOver opens guarding tales (by simpa using inside)
  cases tale with
  | ahead => simp at skipped
  | leafOpen leaf | leaf leaf => cases leaf
  | unavailable selective => exact .inl ⟨selective, rfl⟩
  | flowOpen tales =>
    obtain ⟨k, child, r, found, ended, cuts⟩ := earlier tales (by simpa using skipped)
    exact .inr ⟨k, child, r, found, List.mem_cons_of_mem _ ended, cuts⟩
  | flow tales passed =>
    obtain ⟨k, child, r, found, ended, cuts⟩ := earlier tales (by simpa using skipped)
    exact .inr ⟨k, child, r, found, List.mem_append_left _ (List.mem_cons_of_mem _ ended), cuts⟩

theorem flowExclusive (branches : Branches members)
    (tale : Tale mode path (.flow info spec (before ++ (members ++ after))) ts r)
    (reached : .skipped (path ++ [before.length]) ∉ ts) :
    ∃ full result, Exclusive path before.length members full (some result) ∧
      among path before.length (before.length + members.length) ts <+: full ∧
      ∀ r', .ended path r' ∈ ts →
        among path before.length (before.length + members.length) ts = full ∧
          (after = [] → spec.selector = none → r' = result) := by
  have whole (r' : AppletResult) (ended : .ended path r' ∈ ts) : r = some r' := endedTale tale ended
  cases tale with
  | ahead =>
    obtain ⟨full, result, exclusive⟩ := branchesSome path before.length branches
    exact ⟨full, result, exclusive, List.nil_prefix, by simp⟩
  | leafOpen leaf | leaf leaf => cases leaf
  | unavailable selective =>
    refine absurd (List.mem_cons_of_mem _ (List.mem_append_left _ ?_)) reached
    rw [skipsAppend, Nat.zero_add]
    cases branches
    exact List.mem_append_right _ List.mem_cons_self
  | flowOpen tales =>
    obtain ⟨full, result, exclusive, accords⟩ := talesExclusive branches tales
      fun inside => reached (List.mem_cons_of_mem _ inside)
    rw [amongOwn]
    exact ⟨full, result, exclusive, accords.part, fun r' ended => nomatch whole r' ended⟩
  | flow tales passed =>
    obtain ⟨full, result, exclusive, accords⟩ := talesExclusive branches tales
      fun inside => reached (List.mem_append_left _ (List.mem_cons_of_mem _ inside))
    rw [amongAround]
    refine ⟨full, result, exclusive, accords.part, fun r' ended => ?_⟩
    refine ⟨accords.whole _ rfl, fun alone plain => ?_⟩
    rw [← Option.some.inj (whole r' ended), passed.plain plain, accords.passed alone _ rfl]
    rfl

variable {tree : Applet}

theorem treePassedOver (branches : Branches members) (tale : Tale mode [] tree ts r)
    (located : tree.at? path = some (.flow info spec (before ++ (members ++ after))))
    (skipped : .skipped (path ++ [before.length]) ∈ ts) :
    (spec.selector ≠ none ∧
      under path ts = .started path :: skips path 0 (before ++ (members ++ after)) ++
        [.ended path (.empty false)]) ∨
    ∃ k child r, before[k]? = some child ∧ .ended (path ++ [k]) r ∈ ts ∧
      (spec.kind.mode (tree.modeAt path mode)).cuts child r = true := by
  have below : path <+: path ++ [before.length] := List.prefix_append _ _
  obtain ⟨r', tale, -⟩ := taleOf tale located skipped below (by simp)
  rcases flowPassedOver branches tale (memUnder.mpr ⟨skipped, below⟩) with
    unavailable | ⟨k, child, r, found, ended, cuts⟩
  · exact .inl unavailable
  · exact .inr ⟨k, child, r, found, (memUnder.mp ended).1, cuts⟩

theorem treeExclusive (branches : Branches members) (tale : Tale mode [] tree ts r)
    (located : tree.at? path = some (.flow info spec (before ++ (members ++ after))))
    (reached : .skipped (path ++ [before.length]) ∉ ts) :
    ∃ full result, Exclusive path before.length members full (some result) ∧
      among path before.length (before.length + members.length) ts <+: full ∧
      ∀ r', .ended path r' ∈ ts →
        among path before.length (before.length + members.length) ts = full ∧
          (after = [] → spec.selector = none → r' = result) := by
  by_cases come : ∃ t ∈ ts, path <+: t.path ∧ t ≠ .skipped path
  · obtain ⟨t, inside, below, other⟩ := come
    obtain ⟨r', tale, -⟩ := taleOf tale located inside below other
    obtain ⟨full, result, exclusive, part, whole⟩ := flowExclusive branches tale
      fun inside => reached (memUnder.mp inside).1
    rw [amongUnder] at part whole
    exact ⟨full, result, exclusive, part, fun r' ended =>
      whole r' (memUnder.mpr ⟨ended, List.prefix_rfl⟩)⟩
  · obtain ⟨full, result, exclusive⟩ := branchesSome path before.length branches
    have none : among path before.length (before.length + members.length) ts = [] := by
      refine amongNone fun t inside k _ _ same => come ⟨t, inside, ?_, ?_⟩
      · simp [same]
      · rintro rfl
        simp [Told.path] at same
    refine ⟨full, result, exclusive, ?_, fun r' ended => ?_⟩
    · rw [none]
      exact List.nil_prefix
    · exact absurd ⟨_, ended, List.prefix_rfl, by simp⟩ come

end

namespace Lone

/- Branch exclusivity, for a chain that stands among the children of any flow of the tree. If its
first guard is passed over, the flow had no target or an earlier child has cut it short. If not,
what is told of the members is that the guards are evaluated up to the first that succeeds, or all
of them, one block at most runs, and the rest is skipped; as far as the run has come, and all of it
when the flow ends. A flow that was started has ended when the run completes. -/
theorem branchesExclusive {world : World} (clean : world.slates.Clean) {task : Task}
    {path : List Nat} {info : AppletInfo} {spec : FlowSpec} {before members after : List Applet}
    (located : task.tree.at? path = some (.flow info spec (before ++ (members ++ after))))
    (branches : Branches members) (handle : Handle) (observer : Option Observer) (first : Batch)
    (later : List Batch) :
    let out := drive (obtain world task handle observer first) first later
    let told := out.1.journal.told
    let own := among path before.length (before.length + members.length) told
    (.skipped (path ++ [before.length]) ∈ told →
      (spec.selector ≠ none ∧
        under path told = .started path :: skips path 0 (before ++ (members ++ after)) ++
          [.ended path (.empty false)]) ∨
      ∃ k child r, before[k]? = some child ∧ .ended (path ++ [k]) r ∈ told ∧
        (spec.kind.mode (task.tree.modeAt path .aggregate)).cuts child r = true) ∧
    (.skipped (path ++ [before.length]) ∉ told →
      ∃ full result, Exclusive path before.length members full (some result) ∧ own <+: full ∧
        ∀ r, .ended path r ∈ told →
          own = full ∧ (after = [] → spec.selector = none → r = result)) ∧
    (some (.ok .completed) ∈ out.2 → .started path ∈ told → ∃ r, .ended path r ∈ told) := by
  obtain ⟨r, tale, whole⟩ := driveTold clean task handle observer first later
  refine ⟨treePassedOver branches tale located, treeExclusive branches tale located, ?_⟩
  intro completed started
  obtain ⟨r, rfl⟩ := Option.isSome_iff_exists.mp (whole completed)
  exact startedEnded tale located started

theorem branchesExclusiveLauncher :
    World.fresh.slates.Clean ∧ Branches launcherTask.tree.children ∧
      let out := drive (obtain World.fresh launcherTask ⟨0⟩ none launcherBatch) launcherBatch
        launcherBatches
      let told := out.1.journal.told
      .skipped [0] ∉ told ∧ .ended [] (.empty true) ∈ told ∧
        Exclusive [] 0 launcherTask.tree.children (among [] 0 2 told) (some (.empty true)) := by
  have clean : World.fresh.slates.Clean := fun a inside => nomatch inside
  have branches : Branches launcherTask.tree.children := .opened (.inl rfl) rfl rfl .none
  have located : launcherTask.tree.at? [] = some (.flow { id := .unregistered } { kind := .root }
      ([] ++ (launcherTask.tree.children ++ []))) := rfl
  obtain ⟨-, reached, -⟩ := branchesExclusive clean located branches ⟨0⟩ none launcherBatch
    launcherBatches
  have begun : Told.skipped [0] ∉ (drive (obtain World.fresh launcherTask ⟨0⟩ none launcherBatch)
      launcherBatch launcherBatches).1.journal.told := by decide
  have ended : Told.ended [] (.empty true) ∈ (drive (obtain World.fresh launcherTask ⟨0⟩ none
      launcherBatch) launcherBatch launcherBatches).1.journal.told := by decide
  obtain ⟨full, result, exclusive, -, whole⟩ := reached begun
  obtain ⟨rfl, same⟩ := whole (.empty true) ended
  rw [← same rfl rfl] at exclusive
  exact ⟨clean, branches, begun, ended, exclusive⟩

end Lone
end Automation
